import ProjectOutline.DocumentFile
import ProjectOutline.Proofs.FileTree.Growth
import ProjectOutline.Proofs.Store.Exchange

/-!
# Updating a document in a tree of files

An update reads the document, patches its text and writes it back if that changed it. On a tree of
files it always comes to a result, and all that can happen to the tree is that the document gets its
new text and that directories above it are made (`update_changes_document_only`): a failure costs no
file, an unchanged document means an unchanged tree, and a document that is there but is no text is
never written over.

The directory that relative paths start from has to stand in the tree. That is so in an empty tree
(`hereStands_emptyAt`), and every script keeps it so (`run_hereStands`).
-/

namespace ProjectOutline

/-! ## Scripts on a tree of files -/

section Scripts

variable {α : Type}

namespace FileTree

/-- The written file is not where a directory stood. -/
theorem Written.hereStands {p : Path} {content : ByteArray} {place : Location} {t t' : FileTree}
    (h : Written p content place t t') (ht : t.HereStands) : t'.HereStands := by
  rw [HereStands, h.others.here]
  refine h.others.kept _ _ (fun heq => ?_) ht
  have hreplaced := h.replaced
  rw [← heq, ht] at hreplaced
  simp at hreplaced

/-- A question is answered from the tree, and the script goes on from the tree after it. -/
theorem run_ask (c : Call) (f : c.Answer → Script α) (t : FileTree) :
    (Script.ask c >>= f).run store t = (f (answer c t).1).run store (answer c t).2 :=
  rfl

theorem hereStands_emptyAt (location : Location) : (emptyAt location).HereStands := by
  change standing? (emptyAt.nest location) location = some .directory
  induction location with
  | nil => rfl
  | cons name rest ih =>
    rw [emptyAt.nest, standing?]
    simpa [find?, Item.name] using ih

theorem hereStands_answer {t : FileTree} (ht : t.HereStands) (c : Call) :
    (answer c t).2.HereStands := by
  cases c with
  | write path contents =>
    rw [answer]
    rcases hwrite : t.writeBytes path contents.toUTF8 with ⟨refusal | _, after⟩
    · exact (writeBytes_refused ht hwrite).hereStands ht
    · obtain ⟨place, hwritten⟩ := writeBytes_written ht hwrite
      exact hwritten.hereStands ht
  | read path => exact ht
  | present path => exact ht
  | isDir path => exact ht
  | list path => exact ht
  | walk root skip => exact ht

/-- No script removes the directory that relative paths start from. -/
theorem run_hereStands {t : FileTree} (ht : t.HereStands) (script : Script α) :
    (script.run store t).state.HereStands := by
  induction script generalizing t with
  | done value => exact ht
  | call c next ih => exact ih (answer c t).1 (hereStands_answer ht c)
  | emit e next ih => exact ih ht

end FileTree

end Scripts

namespace DocumentFile

open FileTree (Grows Written above)

variable {t : FileTree} {path : Path} {generated : String} {config : Config}

/-- The text of the document at a path, if one is there. -/
def stored (t : FileTree) (path : Path) : Except Failure (Option String) :=
  if t.isPresent path then
    match t.readText path with
    | .ok text => .ok (some text)
    | .error refusal => .error (.read path refusal.message)
  else .ok none

theorem run_load (t : FileTree) (path : Path) :
    ((load path).run FileTree.store t).result = .ok (stored t path) ∧
      ((load path).run FileTree.store t).state = t := by
  rw [load, FileTree.run_ask, stored]
  by_cases hpresent : t.isPresent path = true
  · have hanswer : (FileTree.answer (.present path) t).1 = true := hpresent
    rw [if_pos hpresent, if_pos hanswer, FileTree.run_ask]
    simp only [FileTree.answer]
    cases t.readText path with
    | error refusal => exact ⟨rfl, rfl⟩
    | ok text => exact ⟨rfl, rfl⟩
  · have hanswer : ¬ (FileTree.answer (.present path) t).1 = true := hpresent
    rw [if_neg hpresent, if_neg hanswer]
    exact ⟨rfl, rfl⟩

/-- A document that did not change is not written. -/
theorem run_save_of_unchanged {outcome : Document.Outcome} (h : outcome.changed = false)
    (t : FileTree) :
    ((save path outcome).run FileTree.store t).result = .ok (.ok outcome) ∧
      ((save path outcome).run FileTree.store t).state = t := by
  rw [save, h]
  exact ⟨rfl, rfl⟩

theorem run_save_of_changed {outcome : Document.Outcome} (h : outcome.changed = true)
    (t : FileTree) :
    ((save path outcome).run FileTree.store t).result =
        .ok (match (t.writeBytes path outcome.text.toUTF8).1 with
          | .ok _ => .ok outcome
          | .error refusal => .error (.write path refusal.message)) ∧
      ((save path outcome).run FileTree.store t).state =
        (t.writeBytes path outcome.text.toUTF8).2 := by
  rw [save, if_pos h, FileTree.run_ask]
  simp only [FileTree.answer]
  cases (t.writeBytes path outcome.text.toUTF8).1 with
  | error refusal => exact ⟨rfl, rfl⟩
  | ok done => exact ⟨rfl, rfl⟩

/-- An update comes to what storing the patched document comes to. -/
theorem run_update_of_stored {existing : Option String} (h : stored t path = .ok existing)
    (generated : String) (config : Config) :
    ((update path generated config).run FileTree.store t).result =
        ((save path (Document.patch existing generated config.markers config.scaffold)).run
          FileTree.store t).result ∧
      ((update path generated config).run FileTree.store t).state =
        ((save path (Document.patch existing generated config.markers config.scaffold)).run
          FileTree.store t).state := by
  obtain ⟨hload, hsame⟩ := run_load t path
  rw [h] at hload
  obtain ⟨hresult, hstate⟩ := Script.run_bind hload
  rw [update, hresult, hstate, hsame]
  dsimp only
  split
  · exact ⟨rfl, rfl⟩
  · exact ⟨rfl, rfl⟩

theorem run_update_of_unreadable {failure : Failure} (h : stored t path = .error failure)
    (generated : String) (config : Config) :
    ((update path generated config).run FileTree.store t).result = .ok (.error failure) ∧
      ((update path generated config).run FileTree.store t).state = t := by
  obtain ⟨hload, hsame⟩ := run_load t path
  rw [h] at hload
  obtain ⟨hresult, hstate⟩ := Script.run_bind hload
  rw [update, hresult, hstate, hsame]
  exact ⟨rfl, rfl⟩

/-- What an update may do to a tree: the document is the only file that changes. -/
structure ChangesDocumentOnly (path : Path) (before : FileTree)
    (result : Except Failure Document.Outcome) (after : FileTree) : Prop where
  failed : ∀ failure, result = .error failure → Grows (fun _ => False) (above path) before after
  unchanged : ∀ outcome, result = .ok outcome → outcome.changed = false → after = before
  changed : ∀ outcome, result = .ok outcome → outcome.changed = true →
    after.readText path = .ok outcome.text ∧
      ∃ place, Written path outcome.text.toUTF8 place before after
  unreadable : ∀ refusal, before.isPresent path = true → before.readText path = .error refusal →
    result = .error (.read path refusal.message) ∧ after = before

theorem stored_of_unreadable {refusal : Refusal} (hpresent : t.isPresent path = true)
    (hread : t.readText path = .error refusal) :
    stored t path = .error (.read path refusal.message) := by
  rw [stored, if_pos hpresent, hread]

namespace ChangesDocumentOnly

variable {after : FileTree} {outcome : Document.Outcome} {failure : Failure}

theorem of_unreadable (h : stored t path = .error failure) :
    ChangesDocumentOnly path t (.error failure) t := by
  refine ⟨fun _ _ => Grows.refl _ _ t, nofun, nofun, ?_⟩
  intro refusal hpresent hread
  rw [stored_of_unreadable hpresent hread] at h
  cases h
  exact ⟨rfl, rfl⟩

section Readable

variable {existing : Option String} (h : stored t path = .ok existing)
include h

/-- A document that is read as a text is not one that cannot be read. -/
theorem readable {result : Except Failure Document.Outcome} (refusal : Refusal)
    (hpresent : t.isPresent path = true) (hread : t.readText path = .error refusal) :
    result = .error (.read path refusal.message) ∧ after = t := by
  rw [stored_of_unreadable hpresent hread] at h
  cases h

theorem of_unchanged (hchanged : outcome.changed = false) :
    ChangesDocumentOnly path t (.ok outcome) t := by
  refine ⟨nofun, fun _ _ _ => rfl, ?_, readable h⟩
  intro outcome' heq hchanged'
  cases heq
  rw [hchanged] at hchanged'
  cases hchanged'

theorem of_written {place : Location} (hchanged : outcome.changed = true)
    (hwritten : Written path outcome.text.toUTF8 place t after) :
    ChangesDocumentOnly path t (.ok outcome) after := by
  refine ⟨nofun, ?_, ?_, readable h⟩
  · intro outcome' heq hchanged'
    cases heq
    rw [hchanged] at hchanged'
    cases hchanged'
  · intro outcome' heq _
    cases heq
    exact ⟨hwritten.readText_eq, place, hwritten⟩

theorem of_refused (hgrows : Grows (fun _ => False) (above path) t after) :
    ChangesDocumentOnly path t (.error failure) after :=
  ⟨fun _ _ => hgrows, nofun, nofun, readable h⟩

end Readable

end ChangesDocumentOnly

/-- An update comes to a result, which is the patch of the stored text if it is no failure, and the
document is the only file that it changes. -/
theorem update_changes_document_only (path : Path) (generated : String) (config : Config)
    (t : FileTree) (ht : t.HereStands) :
    ∃ result, ((update path generated config).run FileTree.store t).result = .ok result ∧
      (∀ outcome, result = .ok outcome → ∃ existing, stored t path = .ok existing ∧
        outcome = Document.patch existing generated config.markers config.scaffold) ∧
      ChangesDocumentOnly path t result
        ((update path generated config).run FileTree.store t).state := by
  cases hstored : stored t path with
  | error failure =>
    obtain ⟨hresult, hstate⟩ := run_update_of_unreadable hstored generated config
    refine ⟨.error failure, hresult, nofun, ?_⟩
    rw [hstate]
    exact .of_unreadable hstored
  | ok existing =>
    obtain ⟨hresult, hstate⟩ := run_update_of_stored hstored generated config
    rw [hresult, hstate]
    obtain ⟨outcome, houtcome⟩ :
        ∃ outcome, outcome = Document.patch existing generated config.markers config.scaffold :=
      ⟨_, rfl⟩
    rw [← houtcome]
    have hpatched : ∀ other, Except.ok outcome = (.ok other : Except Failure _) →
        ∃ stored, Except.ok existing = (.ok stored : Except Failure _) ∧
          other = Document.patch stored generated config.markers config.scaffold := by
      intro other heq
      cases heq
      exact ⟨existing, rfl, houtcome⟩
    cases hchanged : outcome.changed with
    | false =>
      obtain ⟨hsaved, hsame⟩ := run_save_of_unchanged hchanged t
      rw [hsame]
      exact ⟨_, hsaved, hpatched, .of_unchanged hstored hchanged⟩
    | true =>
      obtain ⟨hsaved, hafter⟩ := run_save_of_changed hchanged t
      rw [hafter]
      rcases hwrite : t.writeBytes path outcome.text.toUTF8 with ⟨refusal | _, after⟩
      · rw [hwrite] at hsaved
        exact ⟨_, hsaved, nofun, .of_refused hstored (FileTree.writeBytes_refused ht hwrite)⟩
      · rw [hwrite] at hsaved
        obtain ⟨place, hwritten⟩ := FileTree.writeBytes_written ht hwrite
        exact ⟨_, hsaved, hpatched, .of_written hstored hchanged hwritten⟩

/-- A project with a source and a document that is no text. -/
def unreadableNotes : FileTree where
  items :=
    [.directory (bytesOf "p")
      [.file (bytesOf "a.js") "let a;\n".toUTF8, .file (bytesOf "RAW.md") ⟨#[255]⟩]]
  here := [bytesOf "p"]

theorem resolve_unreadableNotes_raw :
    unreadableNotes.resolve ⟨"RAW.md"⟩ = .ok (.file [bytesOf "p", bytesOf "RAW.md"]) := by
  have hsegments : FileTree.segments (bytesOf "RAW.md") = [bytesOf "RAW.md"] := by decide
  simp only [FileTree.resolve, hsegments]
  rw [if_neg (by decide), if_neg (by decide), if_neg (by decide)]
  exact FileTree.walkSegments.eq_2 ..

theorem walkFrom_unreadableNotes_map :
    unreadableNotes.walkFrom (bytesOf "MAP.md") true [bytesOf "MAP.md"] =
      .ok (.absent [bytesOf "p"] (bytesOf "MAP.md")) :=
  FileTree.walkSegments.eq_2 ..

theorem resolve_unreadableNotes_map :
    unreadableNotes.resolve ⟨"MAP.md"⟩ = .ok (.absent [bytesOf "p"] (bytesOf "MAP.md")) := by
  have hsegments : FileTree.segments (bytesOf "MAP.md") = [bytesOf "MAP.md"] := by decide
  simp only [FileTree.resolve, hsegments]
  rw [if_neg (by decide), if_neg (by decide), if_neg (by decide)]
  exact walkFrom_unreadableNotes_map

theorem writeBytes_unreadableNotes_map (content : ByteArray) :
    (unreadableNotes.writeBytes ⟨"MAP.md"⟩ content).1 = .ok () := by
  have hsegments : FileTree.segments (bytesOf "MAP.md") = [bytesOf "MAP.md"] := by decide
  have hparent : (⟨"MAP.md"⟩ : Path).parent? = some ⟨""⟩ := by decide
  have hensured : unreadableNotes.ensureDirectory ⟨""⟩ = (.ok (), unreadableNotes) := rfl
  simp only [FileTree.writeBytes, hparent, hensured, FileTree.writeBytes.finish,
    FileTree.storeBytes, hsegments]
  rw [if_neg (by decide), if_neg (by decide), if_neg (by decide), walkFrom_unreadableNotes_map]
  rfl

/-- The document that is no text stays, and a new one is written beside the source. -/
theorem update_changes_document_only_unreadable :
    let raw := (update ⟨"RAW.md"⟩ "g\n" .standard).run FileTree.store unreadableNotes
    let map := (update ⟨"MAP.md"⟩ "g\n" .standard).run FileTree.store unreadableNotes
    let outcome := Document.patch none "g\n" .standard Config.standard.scaffold
    unreadableNotes.HereStands ∧
      raw.result = .ok (.error (.read ⟨"RAW.md"⟩ "stream did not contain valid UTF-8")) ∧
      raw.state = unreadableNotes ∧
      map.result = .ok (.ok outcome) ∧ map.state.readText ⟨"MAP.md"⟩ = .ok outcome.text := by
  intro raw map outcome
  have hhere : unreadableNotes.HereStands := rfl
  obtain ⟨refused, hrefused, _, hraw⟩ :=
    update_changes_document_only ⟨"RAW.md"⟩ "g\n" .standard unreadableNotes hhere
  obtain ⟨written, hwritten, _, hmap⟩ :=
    update_changes_document_only ⟨"MAP.md"⟩ "g\n" .standard unreadableNotes hhere
  obtain ⟨hfailed, hsame⟩ := hraw.unreadable .notText
    (by rw [FileTree.isPresent, resolve_unreadableNotes_raw])
    (by rw [FileTree.readText, FileTree.readBytes, resolve_unreadableNotes_raw]; rfl)
  have hresult : map.result = .ok (.ok outcome) := by
    have hstored : stored unreadableNotes ⟨"MAP.md"⟩ = .ok none := by
      rw [stored, FileTree.isPresent, resolve_unreadableNotes_map]
      rfl
    rw [(run_update_of_stored hstored _ _).1, (run_save_of_changed rfl _).1,
      writeBytes_unreadableNotes_map]
    rfl
  have houtcome : written = .ok outcome := Except.ok.inj (hwritten.symm.trans hresult)
  exact ⟨hhere, hrefused.trans (congrArg Except.ok hfailed), hsame, hresult,
    (hmap.changed outcome houtcome rfl).1⟩

end DocumentFile

end ProjectOutline
