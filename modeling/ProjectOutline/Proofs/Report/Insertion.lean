import ProjectOutline.Proofs.Report.Placement

/-!
# One insertion into a tree

What a single insertion does to an arbitrary tree. Names may repeat in a directory, so nothing here
is read off a list of leaves; the only handle on a directory is the first entry of a name.

An insertion goes down one name at a time. `Opens d key entries` says what lies behind a name on the
way: the entries of the directory that is there, or none if one is about to be made. Lookup goes the
same way (`Opens.lookup?_cons`), so each fact about a list of names follows from what happens at one
of them (`descent_induction`).

Directories are made before it is known whether the rest of the way is free. That leaves no trace of
a refused insertion: below a new directory nothing is in the way (`not_blocked_nil`).
-/

namespace ProjectOutline

/-! ## The way down -/

namespace Directory

variable {d entries before after : Directory} {key : String} {rest segments path : List String}

/-- What an insertion finds behind a name that is not the last one: the entries of the directory
there, or none if there is nothing yet. -/
def Opens (d : Directory) (key : String) (entries : Directory) : Prop :=
  get? d key = none ∧ entries = [] ∨ ∃ name, get? d key = some (.directory name entries)

theorem lookup?_nil (path : List String) : lookup? [] path = none := by
  cases path with
  | nil => rfl
  | cons key rest => cases rest <;> rfl

theorem lookup?_cons_of_directory {name : String} (hrest : rest ≠ [])
    (hget : get? d key = some (.directory name entries)) :
    lookup? d (key :: rest) = lookup? entries rest := by
  obtain ⟨next, tail, rfl⟩ := List.exists_cons_of_ne_nil hrest
  simp [lookup?, hget]

theorem lookup?_cons_of_file {name : String} {found : List Declaration} (hrest : rest ≠ [])
    (hget : get? d key = some (.file name found)) : lookup? d (key :: rest) = none := by
  obtain ⟨next, tail, rfl⟩ := List.exists_cons_of_ne_nil hrest
  simp [lookup?, hget]

/-- Lookup sees a directory only through the first entry of a name. -/
theorem lookup?_cons_congr (h : get? before key = get? after key) (rest : List String) :
    lookup? before (key :: rest) = lookup? after (key :: rest) := by
  cases rest with
  | nil => exact h
  | cons next tail => simp only [lookup?, h]

theorem Opens.lookup?_cons (h : Opens d key entries) (hrest : rest ≠ []) :
    lookup? d (key :: rest) = lookup? entries rest := by
  rcases h with ⟨hnone, rfl⟩ | ⟨name, hget⟩
  · have hempty : get? d key = get? [] key := hnone
    rw [lookup?_cons_congr hempty, lookup?_nil, lookup?_nil]
  · exact lookup?_cons_of_directory hrest hget

/-- The induction that follows a list of names down a tree. -/
theorem descent_induction {motive : Directory → List String → Prop}
    (nil : ∀ d, motive d [])
    (last : ∀ d leaf, motive d [leaf])
    (file : ∀ d key rest name found, rest ≠ [] → get? d key = some (.file name found) →
      motive d (key :: rest))
    (inside : ∀ d key rest entries, rest ≠ [] → Opens d key entries → motive entries rest →
      motive d (key :: rest))
    (d : Directory) (segments : List String) : motive d segments := by
  induction segments generalizing d with
  | nil => exact nil d
  | cons key rest ih =>
    by_cases hrest : rest = []
    · rw [hrest]
      exact last d key
    · cases hget : get? d key with
      | none => exact inside d key rest [] hrest (Or.inl ⟨hget, rfl⟩) (ih [])
      | some e =>
        cases e with
        | file name found => exact file d key rest name found hrest hget
        | directory name entries =>
          exact inside d key rest entries hrest (Or.inr ⟨name, hget⟩) (ih entries)

end Directory

/-! ## Trees that grow at the ends of their directories -/

mutual

/-- An entry grows: a file does not change, and a directory keeps its name. -/
inductive Entry.Grows : Entry → Entry → Prop
  | file (key : String) (declarations : List Declaration) :
      Entry.Grows (.file key declarations) (.file key declarations)
  | directory (key : String) (before after : List Entry) (contents : Directory.Grows before after) :
      Entry.Grows (.directory key before) (.directory key after)

/-- A directory grows: its entries keep their places, each grown or as it was, and at most one new
entry stands behind them. -/
inductive Directory.Grows : List Entry → List Entry → Prop
  | same : Directory.Grows [] []
  | added (e : Entry) : Directory.Grows [] [e]
  | cons (e e' : Entry) (before after : List Entry) (first : Entry.Grows e e')
      (rest : Directory.Grows before after) : Directory.Grows (e :: before) (e' :: after)

end

mutual

theorem Entry.Grows.refl : ∀ e : Entry, e.Grows e
  | .file key declarations => .file key declarations
  | .directory key entries => .directory key entries entries (Directory.Grows.refl entries)

theorem Directory.Grows.refl : ∀ d : Directory, Directory.Grows d d
  | [] => .same
  | e :: rest => .cons e e rest rest (Entry.Grows.refl e) (Directory.Grows.refl rest)

end

theorem Entry.Grows.key_eq {e e' : Entry} (h : e.Grows e') : e'.key = e.key := by
  cases h with
  | file key declarations => rfl
  | directory key before after contents => rfl

theorem Entry.Grows.placeOf_eq {e e' : Entry} (h : e.Grows e') :
    Directory.placeOf e' = Directory.placeOf e := by
  cases h with
  | file key declarations => rfl
  | directory key before after contents => rfl

namespace Directory

variable {d entries before after : Directory} {key : String} {rest segments path : List String}

theorem Grows.append (d : Directory) (e : Entry) : Grows d (d ++ [e]) := by
  induction d with
  | nil => exact .added e
  | cons first rest ih => exact .cons first first rest _ (.refl first) ih

theorem Grows.refill {name : String} {contents : Directory}
    (hget : get? d key = some (.directory name entries)) (h : Grows entries contents) :
    Grows d (Directory.refill key contents d) := by
  induction d with
  | nil => cases hget
  | cons e rest ih =>
    rw [Directory.refill]
    split
    · next hkey =>
      rw [get?_cons_self hkey, Option.some.injEq] at hget
      subst hget
      rw [← hkey]
      exact .cons _ _ rest rest (.directory name entries contents h) (.refl rest)
    · next hkey =>
      rw [get?_cons_ne hkey] at hget
      exact .cons e e rest _ (.refl e) (ih hget)

/-- The names stay where they are, with one more behind them or none. -/
theorem Grows.keys (h : Grows before after) :
    after.map Entry.key = before.map Entry.key ∨
      ∃ key, after.map Entry.key = before.map Entry.key ++ [key] := by
  induction before generalizing after with
  | nil =>
    cases h with
    | same => exact Or.inl rfl
    | added e => exact Or.inr ⟨e.key, rfl⟩
  | cons e before ih =>
    cases h with
    | cons _ e' _ after first others =>
      simp only [List.map_cons, List.cons_append, List.cons.injEq, first.key_eq, true_and]
      exact ih others

theorem Grows.get? (h : Grows before after) {e : Entry} (hget : get? before key = some e) :
    ∃ e', Directory.get? after key = some e' ∧ e.Grows e' := by
  induction before generalizing after with
  | nil => cases hget
  | cons first before ih =>
    cases h with
    | cons _ first' _ after hfirst others =>
      by_cases hkey : first.key = key
      · rw [get?_cons_self hkey, Option.some.injEq] at hget
        subst hget
        exact ⟨first', get?_cons_self (hfirst.key_eq.trans hkey) after, hfirst⟩
      · rw [get?_cons_ne hkey] at hget
        rw [get?_cons_ne (by rwa [hfirst.key_eq])]
        exact ih others hget

/-- What a list of names led to is still there, grown or as it was. -/
theorem Grows.lookup? (h : Grows before after) {e : Entry}
    (hlookup : lookup? before path = some e) :
    ∃ e', Directory.lookup? after path = some e' ∧ e.Grows e' := by
  induction before, path using descent_induction generalizing after with
  | nil d => cases hlookup
  | last d leaf => exact h.get? hlookup
  | file d key rest name found hrest hget =>
    rw [lookup?_cons_of_file hrest hget] at hlookup
    cases hlookup
  | inside d key rest entries hrest hopens ih =>
    rw [hopens.lookup?_cons hrest] at hlookup
    rcases hopens with ⟨-, rfl⟩ | ⟨name, hget⟩
    · rw [lookup?_nil] at hlookup
      cases hlookup
    · obtain ⟨first, hget', hgrows⟩ := h.get? hget
      cases hgrows with
      | directory _ _ contents hcontents =>
        rw [lookup?_cons_of_directory hrest hget']
        exact ih hcontents hlookup

/-! ## Insertion -/

theorem get?_refill_self {name : String} (contents : Directory)
    (hget : get? d key = some (.directory name entries)) :
    get? (refill key contents d) key = some (.directory key contents) := by
  induction d with
  | nil => cases hget
  | cons e rest ih =>
    rw [refill]
    split
    · exact get?_cons_self rfl rest
    · next hkey =>
      rw [get?_cons_ne hkey] at hget ⊢
      exact ih hget

theorem get?_refill_ne {other : String} (hother : other ≠ key) (contents d : Directory) :
    get? (refill key contents d) other = get? d other := by
  induction d with
  | nil => rfl
  | cons e rest ih =>
    rw [refill]
    split
    · next hkey =>
      have hreplaced : (Entry.directory key contents).key ≠ other := hother.symm
      have hfound : e.key ≠ other := by
        rw [hkey]
        exact hother.symm
      rw [get?_cons_ne hreplaced, get?_cons_ne hfound]
    · by_cases hfirst : e.key = other
      · rw [get?_cons_self hfirst, get?_cons_self hfirst]
      · rw [get?_cons_ne hfirst, get?_cons_ne hfirst]
        exact ih

theorem get?_append_ne {e : Entry} {other : String} (hother : other ≠ e.key) (d : Directory) :
    get? (d ++ [e]) other = get? d other := by
  simp [get?, List.find?_append, hother.symm]

section Insertion

variable (declarations : List Declaration)

theorem get?_append_file {leaf : String} (hnew : get? d leaf = none) :
    get? (d ++ [.file leaf declarations]) leaf = some (.file leaf declarations) :=
  get?_append_new (e := .file leaf declarations) hnew

/-- One name of an insertion: behind it the insertion goes on, and the entries of other names are
not touched. -/
theorem Opens.insertFile_cons (h : Opens d key entries) (hrest : rest ≠ []) :
    (insertFile d declarations (key :: rest)).2 = (insertFile entries declarations rest).2 ∧
      get? (insertFile d declarations (key :: rest)).1 key =
        some (.directory key (insertFile entries declarations rest).1) ∧
      ∀ other, other ≠ key →
        get? (insertFile d declarations (key :: rest)).1 other = get? d other := by
  rcases h with ⟨hnew, rfl⟩ | ⟨name, hget⟩
  · rw [insertFile_cons_new declarations hrest hnew]
    exact ⟨rfl, get?_append_new hnew, fun other hother => get?_append_ne hother d⟩
  · rw [insertFile_cons_directory declarations hrest hget]
    exact ⟨rfl, get?_refill_self _ hget, fun other hother => get?_refill_ne hother _ d⟩

theorem grows_insertFile (d : Directory) (segments : List String) :
    Grows d (insertFile d declarations segments).1 := by
  induction d, segments using descent_induction with
  | nil d => exact .refl d
  | last d leaf =>
    rw [insertFile]
    split
    · exact .refl d
    · exact .append d _
  | file d key rest name found hrest hget =>
    rw [insertFile_cons_file declarations hrest hget]
    exact .refl d
  | inside d key rest entries hrest hopens ih =>
    rcases hopens with ⟨hnew, rfl⟩ | ⟨name, hget⟩
    · rw [insertFile_cons_new declarations hrest hnew]
      exact .append d _
    · rw [insertFile_cons_directory declarations hrest hget]
      exact .refill hget ih

/-- A list of names that does not begin the list of the insertion leads to what it led to. -/
theorem lookup?_insertFile_off_way (hpath : ¬ path <+: segments) :
    lookup? (insertFile d declarations segments).1 path = lookup? d path := by
  induction d, segments using descent_induction generalizing path with
  | nil d => rfl
  | last d leaf =>
    rw [insertFile]
    split
    · rfl
    · next hfree =>
      cases path with
      | nil => exact absurd List.nil_prefix hpath
      | cons key rest =>
        by_cases hkey : key = leaf
        · subst hkey
          -- Behind the new file there is nothing, as there was before it.
          have hnew : get? d key = none := by simpa using hfree
          have hrest : rest ≠ [] := by simpa using hpath
          dsimp only
          rw [lookup?_cons_of_file hrest (get?_append_file declarations hnew),
            Opens.lookup?_cons (Or.inl ⟨hnew, rfl⟩) hrest, lookup?_nil]
        · exact lookup?_cons_congr (get?_append_ne hkey d) rest
  | file d key rest name found hrest hget => rw [insertFile_cons_file declarations hrest hget]
  | inside d key rest entries hrest hopens ih =>
    obtain ⟨-, hself, hothers⟩ := hopens.insertFile_cons declarations hrest
    cases path with
    | nil => exact absurd List.nil_prefix hpath
    | cons first tail =>
      by_cases hfirst : first = key
      · subst hfirst
        have htail : ¬ tail <+: rest := by simpa using hpath
        have hne : tail ≠ [] := by
          rintro rfl
          exact htail List.nil_prefix
        rw [lookup?_cons_of_directory hne hself, ih htail, hopens.lookup?_cons hne]
      · exact lookup?_cons_congr (hothers first hfirst) tail

/-! ## What is in the way -/

/-- Nothing can be placed at a list of names: it is empty, or it leads to an entry, or a proper part
of it leads to a file. -/
def Blocked (d : Directory) (segments : List String) : Prop :=
  segments = [] ∨ (∃ e, lookup? d segments = some e) ∨
    ∃ way, way ≠ [] ∧ way <+: segments ∧ way ≠ segments ∧
      ∃ found, placeAt? d way = some (.file found)

theorem blocked_singleton_iff {leaf : String} :
    Blocked d [leaf] ↔ (get? d leaf).isSome = true := by
  rw [Option.isSome_iff_exists]
  constructor
  · rintro (hnil | hfound | ⟨way, hway, hbegins, hproper, -⟩)
    · cases hnil
    · exact hfound
    · obtain ⟨first, tail, rfl⟩ := List.exists_cons_of_ne_nil hway
      rw [List.cons_prefix_cons, List.prefix_nil] at hbegins
      obtain ⟨rfl, rfl⟩ := hbegins
      exact absurd rfl hproper
  · exact fun hfound => Or.inr (Or.inl hfound)

theorem blocked_of_file {name : String} {found : List Declaration} (hrest : rest ≠ [])
    (hget : get? d key = some (.file name found)) : Blocked d (key :: rest) := by
  refine Or.inr (Or.inr ⟨[key], List.cons_ne_nil key [], by simp, by simpa using hrest.symm, ?_⟩)
  exact ⟨found, by simp [placeAt?, lookup?, hget, placeOf]⟩

theorem Opens.placeAt?_cons (h : Opens d key entries) (hrest : rest ≠ []) :
    placeAt? d (key :: rest) = placeAt? entries rest := by
  rw [placeAt?, placeAt?, h.lookup?_cons hrest]

theorem Opens.not_file (h : Opens d key entries) (found : List Declaration) :
    placeAt? d [key] ≠ some (.file found) := by
  rw [placeAt?, lookup?]
  rcases h with ⟨hnone, -⟩ | ⟨name, hget⟩
  · simp [hnone]
  · simp [hget, placeOf]

theorem Opens.blocked_cons_iff (h : Opens d key entries) (hrest : rest ≠ []) :
    Blocked d (key :: rest) ↔ Blocked entries rest := by
  constructor
  · rintro (hnil | ⟨e, hlookup⟩ | ⟨way, hway, hbegins, hproper, found, hplace⟩)
    · cases hnil
    · rw [h.lookup?_cons hrest] at hlookup
      exact Or.inr (Or.inl ⟨e, hlookup⟩)
    · obtain ⟨first, tail, rfl⟩ := List.exists_cons_of_ne_nil hway
      obtain ⟨rfl, hbelow⟩ := List.cons_prefix_cons.mp hbegins
      by_cases htail : tail = []
      · rw [htail] at hplace
        exact absurd hplace (h.not_file found)
      · rw [h.placeAt?_cons htail] at hplace
        exact Or.inr (Or.inr ⟨tail, htail, hbelow, by simpa using hproper, found, hplace⟩)
  · rintro (hnil | ⟨e, hlookup⟩ | ⟨way, hway, hbegins, hproper, found, hplace⟩)
    · exact absurd hnil hrest
    · rw [← h.lookup?_cons hrest] at hlookup
      exact Or.inr (Or.inl ⟨e, hlookup⟩)
    · rw [← h.placeAt?_cons hway] at hplace
      exact Or.inr (Or.inr ⟨key :: way, List.cons_ne_nil key way,
        List.cons_prefix_cons.mpr ⟨rfl, hbegins⟩, by simpa using hproper, found, hplace⟩)

theorem not_blocked_nil (hne : segments ≠ []) : ¬ Blocked [] segments := by
  rintro (hnil | ⟨e, hlookup⟩ | ⟨way, -, -, -, found, hplace⟩)
  · exact hne hnil
  · rw [lookup?_nil] at hlookup
    cases hlookup
  · rw [placeAt?, lookup?_nil] at hplace
    cases hplace

theorem insertFile_of_blocked (h : Blocked d segments) :
    insertFile d declarations segments = (d, false) := by
  induction d, segments using descent_induction with
  | nil d => rfl
  | last d leaf => rw [insertFile, if_pos (blocked_singleton_iff.mp h)]
  | file d key rest name found hrest hget => exact insertFile_cons_file declarations hrest hget
  | inside d key rest entries hrest hopens ih =>
    have hbelow := (hopens.blocked_cons_iff hrest).mp h
    rcases hopens with ⟨-, rfl⟩ | ⟨name, hget⟩
    · exact absurd hbelow (not_blocked_nil hrest)
    · obtain ⟨-, rfl⟩ := mem_and_key_of_get? hget
      rw [insertFile_cons_directory declarations hrest hget, ih hbelow, refill_self d hget]

theorem insertFile_of_not_blocked (h : ¬ Blocked d segments) :
    (insertFile d declarations segments).2 = true := by
  induction d, segments using descent_induction with
  | nil d => exact absurd (Or.inl rfl) h
  | last d leaf => rw [insertFile, if_neg (mt blocked_singleton_iff.mpr h)]
  | file d key rest name found hrest hget => exact absurd (blocked_of_file hrest hget) h
  | inside d key rest entries hrest hopens ih =>
    rw [(hopens.insertFile_cons declarations hrest).1]
    exact ih (mt (hopens.blocked_cons_iff hrest).mpr h)

/-- Where the names of the insertion lead after it: to the new file at their end, and to a directory
before that. -/
theorem placeAt?_insertFile_on_way (h : ¬ Blocked d segments) (hpath : path ≠ [])
    (hbegins : path <+: segments) :
    placeAt? (insertFile d declarations segments).1 path =
      some (if path = segments then .file declarations else .directory) := by
  induction d, segments using descent_induction generalizing path with
  | nil d => exact absurd (Or.inl rfl) h
  | last d leaf =>
    have hfree := mt blocked_singleton_iff.mpr h
    have hnew : get? d leaf = none := by simpa using hfree
    obtain ⟨first, tail, rfl⟩ := List.exists_cons_of_ne_nil hpath
    rw [List.cons_prefix_cons, List.prefix_nil] at hbegins
    obtain ⟨rfl, rfl⟩ := hbegins
    rw [insertFile, if_neg hfree, if_pos rfl, placeAt?]
    dsimp only
    rw [lookup?, get?_append_file declarations hnew]
    rfl
  | file d key rest name found hrest hget => exact absurd (blocked_of_file hrest hget) h
  | inside d key rest entries hrest hopens ih =>
    obtain ⟨-, hself, -⟩ := hopens.insertFile_cons declarations hrest
    obtain ⟨first, tail, rfl⟩ := List.exists_cons_of_ne_nil hpath
    obtain ⟨rfl, hbelow⟩ := List.cons_prefix_cons.mp hbegins
    by_cases htail : tail = []
    · subst htail
      rw [if_neg (by simpa using hrest.symm), placeAt?, lookup?, hself]
      rfl
    · have hplace := ih (mt (hopens.blocked_cons_iff hrest).mpr h) htail hbelow
      rw [Opens.placeAt?_cons (Or.inr ⟨first, hself⟩) htail, hplace]
      simp

/-! ## The whole insertion -/

/-- A file has been placed at a list of names, and nothing else has happened to the tree. -/
structure Inserted (segments : List String) (declarations : List Declaration)
    (before after : Directory) : Prop where
  placed : placeAt? after segments = some (.file declarations)
  files : ∀ path found, placeAt? before path = some (.file found) →
    placeAt? after path = some (.file found)
  directories : ∀ path, placeAt? before path = some .directory →
    placeAt? after path = some .directory
  /-- What is new is the file and the directories on the way to it. -/
  fresh : ∀ path, placeAt? before path = none → placeAt? after path ≠ none →
    path = segments ∨
      path ≠ [] ∧ path <+: segments ∧ path ≠ segments ∧ placeAt? after path = some .directory
  /-- Off the way to the file every entry is the same, with all that lies in it. -/
  elsewhere : ∀ path, ¬ path <+: segments → lookup? after path = lookup? before path
  /-- A directory that names lead to keeps its names in their places, with at most one behind. -/
  keys : ∀ path contents, Report.LeadsTo before path contents →
    ∃ contents', Report.LeadsTo after path contents' ∧
      (contents'.map Entry.key = contents.map Entry.key ∨
        ∃ key, contents'.map Entry.key = contents.map Entry.key ++ [key])
  /-- The same is true of the directories that an earlier entry of the same name hides. -/
  grows : Grows before after

theorem Grows.placeAt? (h : Grows before after) {place : Place}
    (hplace : placeAt? before path = some place) : Directory.placeAt? after path = some place := by
  obtain ⟨e, hlookup, rfl⟩ := Option.map_eq_some_iff.mp hplace
  obtain ⟨e', hlookup', hgrows⟩ := h.lookup? hlookup
  rw [Directory.placeAt?, hlookup', Option.map_some, hgrows.placeOf_eq]

theorem Grows.leadsTo {contents : Directory} (h : Grows before after)
    (hleads : Report.LeadsTo before path contents) :
    ∃ contents', Report.LeadsTo after path contents' ∧ Grows contents contents' := by
  rcases hleads with ⟨rfl, rfl⟩ | ⟨name, hlookup⟩
  · exact ⟨after, Or.inl ⟨rfl, rfl⟩, h⟩
  · obtain ⟨e', hlookup', hgrows⟩ := h.lookup? hlookup
    cases hgrows with
    | directory _ _ contents' hcontents => exact ⟨contents', Or.inr ⟨name, hlookup'⟩, hcontents⟩

theorem inserted_of_not_blocked (h : ¬ Blocked d segments) :
    Inserted segments declarations d (insertFile d declarations segments).1 := by
  have hgrows := grows_insertFile declarations d segments
  have hne : segments ≠ [] := fun hnil => h (Or.inl hnil)
  refine
    { placed := ?_
      files := fun path found hplace => hgrows.placeAt? hplace
      directories := fun path hplace => hgrows.placeAt? hplace
      fresh := ?_
      elsewhere := fun path hpath => lookup?_insertFile_off_way declarations hpath
      keys := ?_
      grows := hgrows }
  · rw [placeAt?_insertFile_on_way declarations h hne (List.prefix_refl segments), if_pos rfl]
  · intro path hbefore hafter
    have hbegins : path <+: segments := by
      by_contra hoff
      rw [placeAt?, lookup?_insertFile_off_way declarations hoff] at hafter
      exact hafter hbefore
    have hpath : path ≠ [] := by
      rintro rfl
      exact hafter rfl
    by_cases heq : path = segments
    · exact Or.inl heq
    · rw [placeAt?_insertFile_on_way declarations h hpath hbegins, if_neg heq]
      exact Or.inr ⟨hpath, hbegins, heq, rfl⟩
  · intro path contents hleads
    obtain ⟨contents', hleads', hcontents⟩ := hgrows.leadsTo hleads
    exact ⟨contents', hleads', hcontents.keys⟩

end Insertion

/-- **An insertion happens as a whole or not at all, and at one place.** It is refused exactly if
there are no names, something stands where they lead, or a file is on the way; a refused insertion
leaves the tree as it was; any other places the file and touches nothing off the way to it. -/
theorem insertFile_all_or_nothing (d : Directory) (declarations : List Declaration)
    (segments : List String) :
    ((insertFile d declarations segments).2 = false ↔ Blocked d segments) ∧
      ((insertFile d declarations segments).2 = false →
        (insertFile d declarations segments).1 = d) ∧
      ((insertFile d declarations segments).2 = true →
        Inserted segments declarations d (insertFile d declarations segments).1) := by
  by_cases h : Blocked d segments
  · rw [insertFile_of_blocked declarations h]
    exact ⟨⟨fun _ => h, fun _ => rfl⟩, fun _ => rfl, nofun⟩
  · rw [insertFile_of_not_blocked declarations h]
    exact ⟨⟨nofun, fun hblocked => absurd hblocked h⟩, nofun,
      fun _ => inserted_of_not_blocked declarations h⟩

/-- A tree in which the second directory of a name is hidden by the first. -/
def hiddenSecond : Directory :=
  [.directory "src" [.file "a.js" [.function "a"]], .file "main.js" [.function "main"],
    .directory "src" [.file "b.js" [.function "b"]]]

/-- The file in the hidden directory is not in the way of one in the first, and a file on the way is
refused before anything is made behind it. -/
theorem insertFile_all_or_nothing_hidden :
    Inserted ["src", "b.js"] [.function "other"] hiddenSecond
        (insertFile hiddenSecond [.function "other"] ["src", "b.js"]).1 ∧
      Blocked hiddenSecond ["main.js", "lib", "c.js"] ∧
      (insertFile hiddenSecond [.function "c"] ["main.js", "lib", "c.js"]).1 = hiddenSecond := by
  obtain ⟨-, -, hplaced⟩ :=
    insertFile_all_or_nothing hiddenSecond [.function "other"] ["src", "b.js"]
  obtain ⟨hrefused, hsame, -⟩ :=
    insertFile_all_or_nothing hiddenSecond [.function "c"] ["main.js", "lib", "c.js"]
  exact ⟨hplaced rfl, hrefused.mp rfl, hsame rfl⟩

end Directory

end ProjectOutline
