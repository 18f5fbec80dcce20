import ProjectOutline.Proofs.Discovery.FirstFound
import ProjectOutline.Proofs.Discovery.Scan
import ProjectOutline.Proofs.Store.Answers

/-!
# The sources of a project

The sources are the files with an extension of a known language that the directories to scan hold.
The directories are the root and then the included ones, relative or absolute; those that are
missing or cannot be walked hold nothing. A file is listed once, where it was first discovered
(`discoveries`), and its displayed path leads back to it from the root: that path is put together
from the label of a directory and the components below it, and an absolute directory has an absolute
label (`exists_display`).

Of the store this needs that its answers do not change, and that walks answer with files strictly
below the directory.
-/

namespace ProjectOutline

/-! ## Directories and files -/

/-- The directory is there and can be walked, and the walk answers with the file. -/
def Answers.Finds (answers : Answers) (skip : List String) (dir path : Path) : Prop :=
  answers (.isDir dir) = true ∧ ∃ files, answers (.walk dir skip) = .ok files ∧ path ∈ files

/-- The files that are found in a directory. -/
def Answers.filesIn (answers : Answers) (skip : List String) (dir : Path) : List Path :=
  if answers (.isDir dir) then
    match answers (.walk dir skip) with
    | .ok files => files
    | .error _ => []
  else []

theorem Answers.mem_filesIn_iff {answers : Answers} {skip : List String} {dir path : Path} :
    path ∈ answers.filesIn skip dir ↔ answers.Finds skip dir path := by
  unfold filesIn Finds
  cases answers (.isDir dir) with
  | false => simp
  | true => cases answers (.walk dir skip) <;> simp

namespace Discovery

/-- The extensions of source files, in lower case. -/
def sourceExtensions : List String :=
  ["py", "pyi", "ts", "mts", "cts", "tsx", "js", "jsx", "mjs", "cjs"]

/-- The path has an extension of a known language, in any mix of ASCII case. -/
def HasSourceExtension (path : Path) : Prop :=
  ∃ extension, path.extension? = some extension ∧
    String.ofList (extension.toList.map Char.toLower) ∈ sourceExtensions

theorem isSome_ofPath?_iff {path : Path} :
    (Grammar.ofPath? path).isSome = true ↔ HasSourceExtension path := by
  have hextension : ∀ text,
      (Grammar.ofExtension? text).isSome = true ↔ text ∈ sourceExtensions := by
    intro text
    unfold Grammar.ofExtension?
    split <;> simp_all [sourceExtensions]
  unfold Grammar.ofPath? HasSourceExtension
  cases path.extension? with
  | none => simp
  | some extension => simpa using hextension _

/-- Two spellings of a path have the same extension. -/
theorem HasSourceExtension.congr {path other : Path} (h : HasSourceExtension path)
    (hsame : path.components = other.components) : HasSourceExtension other := by
  have hextension : other.extension? = path.extension? := by
    unfold Path.extension? Path.fileName?
    rw [hsame]
  unfold HasSourceExtension
  rw [hextension]
  exact h

/-! ## Displayed paths -/

section Display

variable {root : Path} {included : List Path} {scan : ScanRoot} {path : Path}

/-- The displayed path of a located source leads back to it. -/
theorem Located.leads_back {source : SourcePath} {rest : List Path.Component}
    (h : Located root source rest) (hroot : root.text ≠ "") :
    (root.join ⟨source.display⟩).components = source.path.components := by
  have hrelative := Path.isAbsolute_slashed h.plain h.proper
  rw [h.display, Path.components_join hroot hrelative,
    Path.segmentComponents_slashed h.plain h.proper, h.below]

/-- A file strictly below an absolute directory has an absolute displayed path, which spells its
components. -/
theorem exists_display_of_isAbsolute {extra : Path} (habsolute : extra.isAbsolute = true)
    (hbelow : extra.components <+: path.components)
    (hne : extra.components ≠ path.components) :
    ∃ display, display? ⟨extra, extra.label⟩ path = some display ∧
      (⟨display⟩ : Path).isAbsolute = true ∧ (⟨display⟩ : Path).components = path.components := by
  obtain ⟨tail, htail⟩ := hbelow
  have htail' : tail ≠ [] := by
    intro hnil
    exact hne (by rw [← htail, hnil, List.append_nil])
  have hcomponents := Path.components_of_isAbsolute habsolute
  have hlead : ∀ c ∈ Path.segmentComponents extra.text.toList, c.Plain :=
    fun c hc => Path.plain_of_mem_segmentComponents hc
  have hplain : ∀ c ∈ tail, c.Plain :=
    Path.plain_of_components_eq htail.symm (by rw [hcomponents]; exact List.cons_ne_nil _ _)
  obtain ⟨hlabel, hproper, -⟩ := Path.label_of_isAbsolute habsolute
  have hinner : path.below? extra = some tail := by
    rw [Path.below?, Path.dropLead?, ← htail, if_pos (by simp), List.drop_left]
  obtain ⟨hdisplay, hspelled⟩ := Path.components_slashed_root_append hlead hplain htail'
  rw [← hlabel] at hdisplay hspelled
  refine ⟨extra.label ++ "/" ++ Path.slashed tail, ?_, hdisplay, ?_⟩
  · simp [display?, hinner, hproper]
  · rw [hspelled, ← htail, hcomponents]
    rfl

/-- A file strictly below a directory to scan is displayed, by a path that leads back to it. -/
theorem exists_display (hroot : root.text ≠ "") (hscan : scan ∈ scanRoots root included)
    (hbelow : scan.dir.components <+: path.components)
    (hne : scan.dir.components ≠ path.components) :
    ∃ display, display? scan path = some display ∧
      (root.join ⟨display⟩).components = path.components := by
  -- The other included directories do not matter, so a relative one may be taken alone.
  have hrelative : ∀ others : List Path, (∀ extra ∈ others, extra.isAbsolute = false) →
      scan ∈ scanRoots root others → ∃ display, display? scan path = some display ∧
        (root.join ⟨display⟩).components = path.components := by
    intro others hothers hscan
    obtain ⟨display, rest, hdisplay, hlocated⟩ := shown_of_below hroot hothers hscan hbelow hne
    exact ⟨display, hdisplay, hlocated.leads_back hroot⟩
  rcases List.mem_cons.mp hscan with hwhole | hincluded
  · exact hrelative [] (by simp) (by rw [hwhole]; exact List.mem_cons_self)
  · obtain ⟨extra, -, hextra⟩ := List.mem_map.mp hincluded
    cases habsolute : extra.isAbsolute with
    | false =>
      refine hrelative [extra] (by simpa using habsolute) ?_
      rw [← hextra]
      exact List.mem_cons_of_mem _ (List.mem_map_of_mem List.mem_cons_self)
    | true =>
      have hdir : scan = ⟨extra, extra.label⟩ := by
        rw [← hextra, Path.join_of_isAbsolute habsolute,
          if_neg (Path.label_of_isAbsolute habsolute).2.2]
      rw [hdir] at hbelow hne
      obtain ⟨display, hdisplay, hspelled, hcomponents⟩ :=
        exists_display_of_isAbsolute habsolute hbelow hne
      refine ⟨display, hdir ▸ hdisplay, ?_⟩
      rw [Path.join_of_isAbsolute hspelled, hcomponents]

end Display

/-! ## Discoveries -/

/-- The files with a source extension in the directories to scan, in the order in which they are
discovered: directory by directory, and in each as its walk tells them. -/
def discoveries (answers : Answers) (root : Path) (included : List Path) (skip : List String) :
    List Find :=
  readable (finds ((scanRoots root included).map fun scan => (scan, answers.filesIn skip scan.dir)))

section Discoveries

variable {answers : Answers} {root : Path} {included : List Path} {skip : List String}

theorem mem_discoveries_iff {find : Find} :
    find ∈ discoveries answers root included skip ↔ HasSourceExtension find.2 ∧
      find.1 ∈ scanRoots root included ∧ answers.Finds skip find.1.dir find.2 := by
  obtain ⟨scan, path⟩ := find
  simp only [discoveries, readable, finds, List.mem_filter, List.mem_flatMap, List.mem_map,
    isSome_ofPath?_iff, ← Answers.mem_filesIn_iff]
  constructor
  · rintro ⟨⟨item, ⟨scan', hscan, rfl⟩, file, hfile, hfind⟩, hextension⟩
    cases hfind
    exact ⟨hextension, hscan, hfile⟩
  · intro h
    exact ⟨⟨_, ⟨scan, h.2.1, rfl⟩, path, h.2.2, rfl⟩, h.1⟩

theorem outcome_filesBelow (answers : Answers) (skip : List String) (scan : ScanRoot) :
    (filesBelow skip scan).outcome answers = (scan, answers.filesIn skip scan.dir) := by
  unfold filesBelow Answers.filesIn
  rw [Script.outcome_bind, Script.outcome_ask]
  cases answers (.isDir scan.dir) with
  | false => rfl
  | true =>
    simp only [if_true]
    rw [Script.outcome_bind, Script.outcome_ask]
    cases answers (.walk scan.dir skip) <;> rfl

theorem outcome_sources (answers : Answers) (root : Path) (included : List Path)
    (skip : List String) :
    (sources root included skip).outcome answers =
      gather ((scanRoots root included).map fun scan =>
        (scan, answers.filesIn skip scan.dir)) := by
  simp [sources, outcome_filesBelow]

end Discoveries

/-! ## The list of sources -/

/-- The place among the discoveries at which a path is first met, in whatever spelling. -/
def firstMet (answers : Answers) (root : Path) (included : List Path) (skip : List String)
    (path : Path) : Nat :=
  firstPlace Find.components (discoveries answers root included skip) path.components

/-- The files that are found in the directories to scan lie strictly below them. -/
def WalksInside (answers : Answers) (root : Path) (included : List Path) (skip : List String) :
    Prop :=
  ∀ scan ∈ scanRoots root included, ∀ path ∈ answers.filesIn skip scan.dir,
    scan.dir.components <+: path.components ∧ scan.dir.components ≠ path.components

instance (answers : Answers) (root : Path) (included : List Path) (skip : List String) :
    Decidable (WalksInside answers root included skip) :=
  inferInstanceAs (Decidable (∀ scan ∈ scanRoots root included,
    ∀ path ∈ answers.filesIn skip scan.dir,
      scan.dir.components <+: path.components ∧ scan.dir.components ≠ path.components))

/-- The sources of a project, told by the answers of its store. -/
structure Catalogue (answers : Answers) (root : Path) (included : List Path) (skip : List String)
    (found : List SourcePath) : Prop where
  /-- No two sources have the same components. -/
  distinct : found.Pairwise fun p q => p.path.components ≠ q.path.components
  /-- A path is listed exactly if it has a source extension and is found in the root or in an
  included directory. -/
  listed_iff : ∀ path : Path,
    (∃ source ∈ found, source.path.components = path.components) ↔
      HasSourceExtension path ∧ ∃ dir ∈ root :: included.map root.join,
        ∃ file, answers.Finds skip dir file ∧ file.components = path.components
  /-- The sources stand in the order of their first discovery. -/
  ordered : found.Pairwise fun p q =>
    firstMet answers root included skip p.path < firstMet answers root included skip q.path
  /-- Each is spelled and displayed by the directory in which it was first discovered. -/
  first : ∀ source ∈ found, ∃ scan,
    (discoveries answers root included skip)[firstMet answers root included skip source.path]? =
      some (scan, source.path) ∧ display? scan source.path = some source.display
  /-- From the root, the displayed path leads back to the file. -/
  leads_back : ∀ source ∈ found,
    (root.join ⟨source.display⟩).components = source.path.components
  /-- No two sources are displayed alike. -/
  displays : found.Pairwise fun p q => p.display ≠ q.display

section Catalogue

variable {answers : Answers} {root : Path} {included : List Path} {skip : List String}
  {kept : List Find}

/-- A file as a source; the displayed path is the one of its directory. -/
def Find.source (find : Find) : SourcePath :=
  ⟨find.2, (display? find.1 find.2).getD ""⟩

/-- Discovered files are displayed, if walks stay below their directories. -/
theorem source?_of_mem_discoveries (hroot : root.text ≠ "")
    (hwalks : WalksInside answers root included skip) {find : Find}
    (hfind : find ∈ discoveries answers root included skip) :
    find.source? = some find.source ∧
      (root.join ⟨find.source.display⟩).components = find.2.components := by
  obtain ⟨-, hscan, hfound⟩ := mem_discoveries_iff.mp hfind
  obtain ⟨hbelow, hne⟩ := hwalks find.1 hscan find.2 (Answers.mem_filesIn_iff.mpr hfound)
  obtain ⟨display, hdisplay, hback⟩ := exists_display hroot hscan hbelow hne
  simp [Find.source?, Find.source, hdisplay, hback]

theorem listed_iff_of_firstsBy
    (h : FirstsBy Find.components (discoveries answers root included skip) kept) (path : Path) :
    (∃ source ∈ kept.map Find.source, source.path.components = path.components) ↔
      HasSourceExtension path ∧ ∃ dir ∈ root :: included.map root.join,
        ∃ file, answers.Finds skip dir file ∧ file.components = path.components := by
  have hdirs : ∀ dir, dir ∈ root :: included.map root.join ↔
      ∃ scan ∈ scanRoots root included, scan.dir = dir := by
    intro dir
    simp [scanRoots, eq_comm]
  constructor
  · rintro ⟨source, hsource, hsame⟩
    obtain ⟨find, hfind, rfl⟩ := List.mem_map.mp hsource
    obtain ⟨hextension, hscan, hfound⟩ := mem_discoveries_iff.mp (h.mem hfind)
    exact ⟨hextension.congr hsame, find.1.dir, (hdirs _).mpr ⟨find.1, hscan, rfl⟩, find.2, hfound,
      hsame⟩
  · rintro ⟨hextension, dir, hdir, file, hfound, hsame⟩
    obtain ⟨scan, hscan, rfl⟩ := (hdirs dir).mp hdir
    have hmem : (scan, file) ∈ discoveries answers root included skip :=
      mem_discoveries_iff.mpr ⟨hextension.congr hsame.symm, hscan, hfound⟩
    obtain ⟨find, hfind, hkey⟩ := List.mem_map.mp (h.covers _ hmem)
    exact ⟨find.source, List.mem_map_of_mem hfind, Eq.trans hkey hsame⟩

/-- The files that were found first make up the list of sources. -/
theorem catalogue_of_firstsBy (hroot : root.text ≠ "")
    (hwalks : WalksInside answers root included skip)
    (h : FirstsBy Find.components (discoveries answers root included skip) kept) :
    Catalogue answers root included skip (kept.map Find.source) := by
  have hback : ∀ find ∈ kept,
      (root.join ⟨find.source.display⟩).components = find.2.components := fun find hfind =>
    (source?_of_mem_discoveries hroot hwalks (h.mem hfind)).2
  constructor
  case distinct => exact List.pairwise_map.mpr h.distinct
  case listed_iff => exact listed_iff_of_firstsBy h
  case ordered => exact List.pairwise_map.mpr h.ordered
  case first =>
    intro source hsource
    obtain ⟨find, hfind, rfl⟩ := List.mem_map.mp hsource
    have hsource := (source?_of_mem_discoveries hroot hwalks (h.mem hfind)).1
    obtain ⟨display, hdisplay, hmk⟩ := Option.map_eq_some_iff.mp hsource
    refine ⟨find.1, h.first find hfind, ?_⟩
    rw [← hmk]
    exact hdisplay
  case leads_back =>
    intro source hsource
    obtain ⟨find, hfind, rfl⟩ := List.mem_map.mp hsource
    exact hback find hfind
  case displays =>
    refine List.pairwise_map.mpr ((List.Pairwise.and_mem.mp h.distinct).imp ?_)
    intro p q hpq hdisplay
    apply hpq.2.2
    unfold Find.components
    rw [← hback p hpq.1, hdisplay, hback q hpq.2.1]

end Catalogue

/-- **The sources of a project are the files that its directories hold, each where it was discovered
first.** -/
theorem sources_form_catalogue {σ : Type} (responder : Responder σ) (answers : Answers)
    (hgives : responder.Gives answers) (s : σ) (root : Path) (included : List Path)
    (skip : List String) (hroot : root.text ≠ "")
    (hwalks : WalksInside answers root included skip) :
    ∃ found, ((sources root included skip).run responder.store s).result = .ok found ∧
      Catalogue answers root included skip found := by
  obtain ⟨kept, hkept, hgather⟩ := exists_firstsBy_gather
    ((scanRoots root included).map fun scan => (scan, answers.filesIn skip scan.dir))
  refine ⟨kept.map Find.source, ?_, catalogue_of_firstsBy hroot hwalks hkept⟩
  rw [Script.run_of_gives hgives, outcome_sources, hgather]
  congr 1
  rw [← List.filterMap_eq_map]
  apply List.filterMap_congr
  intro find hfind
  exact (source?_of_mem_discoveries hroot hwalks (hkept.mem hfind)).1

/-- A store with a project in `p`, a file outside of it, and a directory that cannot be walked. -/
def scattered : Answers
  | .walk ⟨"p"⟩ _ => .ok [⟨"p/a/b.py"⟩, ⟨"p/a/notes.md"⟩, ⟨"p/c.js"⟩]
  | .walk ⟨"p/./a//"⟩ _ => .ok [⟨"p/./a//b.py"⟩, ⟨"p/./a//hidden.ts"⟩]
  | .walk ⟨"/q"⟩ _ => .ok [⟨"/q/d.PYI"⟩]
  | .walk _ _ => .error "no such directory"
  | .isDir path => path.text ≠ "p/gone"
  | .present _ => true
  | .read path => .ok path.text
  | .write _ _ => .ok ()
  | .list _ => .ok []

theorem sources_form_catalogue_scattered :
    WalksInside scattered ⟨"p"⟩ [⟨"./a//"⟩, ⟨"gone"⟩, ⟨"locked"⟩, ⟨"/q"⟩] ["dist"] ∧
      Catalogue scattered ⟨"p"⟩ [⟨"./a//"⟩, ⟨"gone"⟩, ⟨"locked"⟩, ⟨"/q"⟩] ["dist"]
        [⟨⟨"p/a/b.py"⟩, "a/b.py"⟩, ⟨⟨"p/c.js"⟩, "c.js"⟩,
          ⟨⟨"p/./a//hidden.ts"⟩, "a/hidden.ts"⟩, ⟨⟨"/q/d.PYI"⟩, "//q/d.PYI"⟩] := by
  have hwalks : WalksInside scattered ⟨"p"⟩ [⟨"./a//"⟩, ⟨"gone"⟩, ⟨"locked"⟩, ⟨"/q"⟩] ["dist"] := by
    decide
  obtain ⟨found, hrun, hcatalogue⟩ := sources_form_catalogue scattered.responder scattered
    scattered.responder_gives () ⟨"p"⟩ [⟨"./a//"⟩, ⟨"gone"⟩, ⟨"locked"⟩, ⟨"/q"⟩] ["dist"]
    (by decide) hwalks
  have hfound : found = [⟨⟨"p/a/b.py"⟩, "a/b.py"⟩, ⟨⟨"p/c.js"⟩, "c.js"⟩,
      ⟨⟨"p/./a//hidden.ts"⟩, "a/hidden.ts"⟩, ⟨⟨"/q/d.PYI"⟩, "//q/d.PYI"⟩] := by
    cases hrun
    decide
  exact ⟨hwalks, hfound ▸ hcatalogue⟩

end Discovery

end ProjectOutline
