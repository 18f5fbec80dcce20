import ProjectOutline.Proofs.Report.Leaf

/-!
# What a directory holds

`Directory.Holds d leaves` says that the tree `d` is the one that a list of leaves, each a path with
the declarations of a file, describes: the entries of every directory are the first segments of its
leaves, once each and in the order in which they first occur; a file is the only leaf at its place;
the entries of a directory hold what is behind its name. One insertion adds one leaf or leaves the
tree alone (`insertFile_of_free`, `insertFile_of_clash`), and what a list of names leads to can be
read off the leaves (`Holds.lookup_cases`).
-/

namespace ProjectOutline

/-! ## Trees and their leaves -/

mutual

/-- An entry holds the leaves behind its name: a file the one leaf that ends there. -/
inductive Entry.Holds : Entry → List Leaf → Prop
  | file (key : String) (declarations : List Declaration) :
      Entry.Holds (.file key declarations) [([], declarations)]
  | directory (key : String) (entries : List Entry) (leaves : List Leaf)
      (contents : Directory.Holds entries leaves) : Entry.Holds (.directory key entries) leaves

/-- A directory holds leaves: its entries are their first segments, in order of first occurrence. -/
inductive Directory.Holds : List Entry → List Leaf → Prop
  | mk (d : List Entry) (leaves : List Leaf) (proper : ∀ leaf ∈ leaves, leaf.1 ≠ [])
      (keys : d.map Entry.key = (Leaf.heads leaves).eraseDups)
      (entries : ∀ e ∈ d, Entry.Holds e (Leaf.behind e.key leaves)) : Directory.Holds d leaves

end

namespace Directory

variable {d : Directory} {leaves : List Leaf} {key : String}

theorem Holds.proper (h : Holds d leaves) : ∀ leaf ∈ leaves, leaf.1 ≠ [] := by
  cases h with
  | mk _ _ proper _ _ => exact proper

theorem Holds.keys (h : Holds d leaves) : d.map Entry.key = (Leaf.heads leaves).eraseDups := by
  cases h with
  | mk _ _ _ keys _ => exact keys

theorem Holds.entry (h : Holds d leaves) {e : Entry} (he : e ∈ d) :
    e.Holds (Leaf.behind e.key leaves) := by
  cases h with
  | mk _ _ _ _ entries => exact entries e he

theorem holds_nil : Holds [] [] :=
  .mk [] [] (by simp) rfl (by simp)

theorem Holds.nodup (h : Holds d leaves) : (d.map Entry.key).Nodup := by
  rw [h.keys]
  exact nodup_eraseDups _

theorem Holds.mem_keys_iff (h : Holds d leaves) :
    key ∈ d.map Entry.key ↔ key ∈ Leaf.heads leaves := by
  rw [h.keys, List.mem_eraseDups]

theorem mem_and_key_of_get? {e : Entry} (h : get? d key = some e) : e ∈ d ∧ e.key = key := by
  rw [get?] at h
  exact ⟨List.mem_of_find?_eq_some h, by simpa using List.find?_some h⟩

theorem get?_eq_none_iff : get? d key = none ↔ key ∉ d.map Entry.key := by
  rw [get?, List.find?_eq_none]
  simp

theorem get?_cons_self {e : Entry} (hkey : e.key = key) (rest : Directory) :
    get? (e :: rest) key = some e := by
  simp [get?, hkey]

theorem get?_cons_ne {e : Entry} (hkey : e.key ≠ key) (rest : Directory) :
    get? (e :: rest) key = get? rest key := by
  simp [get?, hkey]

theorem Holds.get?_eq_none_iff (h : Holds d leaves) :
    get? d key = none ↔ Leaf.behind key leaves = [] := by
  rw [Directory.get?_eq_none_iff, h.mem_keys_iff, Leaf.behind_eq_nil_iff]

theorem Holds.holds_of_get? (h : Holds d leaves) {e : Entry} (he : get? d key = some e) :
    e.Holds (Leaf.behind key leaves) := by
  obtain ⟨hmem, rfl⟩ := mem_and_key_of_get? he
  exact h.entry hmem

/-! ## Refilling a directory -/

theorem refill_keys (contents : Directory) :
    ∀ d : Directory, (refill key contents d).map Entry.key = d.map Entry.key
  | [] => rfl
  | e :: rest => by
    rw [refill]
    split
    · next hkey => rw [List.map_cons, List.map_cons, hkey]; rfl
    · rw [List.map_cons, List.map_cons, refill_keys contents rest]

/-- Refilling with the contents that are there changes nothing. -/
theorem refill_self {contents : Directory} :
    ∀ d : Directory, get? d key = some (.directory key contents) → refill key contents d = d
  | [], h => by cases h
  | e :: rest, h => by
    rw [refill]
    split
    · next hkey =>
      rw [get?_cons_self hkey, Option.some.injEq] at h
      rw [h]
    · next hkey =>
      rw [get?_cons_ne hkey] at h
      rw [refill_self rest h]

/-- With names that differ, only the entry of that name is replaced. -/
theorem mem_refill {contents : Directory} {e : Entry} :
    ∀ d : Directory, (d.map Entry.key).Nodup → e ∈ refill key contents d →
      e = .directory key contents ∨ e ∈ d ∧ e.key ≠ key
  | [], _, h => by cases h
  | head :: rest, hnodup, h => by
    rw [List.map_cons, List.nodup_cons] at hnodup
    rw [refill] at h
    split at h
    · next hkey =>
      rcases List.mem_cons.mp h with rfl | hmem
      · exact Or.inl rfl
      · refine Or.inr ⟨List.mem_cons_of_mem _ hmem, fun he => hnodup.1 ?_⟩
        rw [hkey, ← he]
        exact List.mem_map_of_mem hmem
    · next hkey =>
      rcases List.mem_cons.mp h with rfl | hmem
      · exact Or.inr ⟨List.mem_cons_self, hkey⟩
      · exact (mem_refill rest hnodup.2 hmem).imp id fun h => ⟨List.mem_cons_of_mem _ h.1, h.2⟩

theorem refill_append_new (contents : Directory) :
    ∀ d : Directory, key ∉ d.map Entry.key →
      refill key contents (d ++ [.directory key []]) = d ++ [.directory key contents]
  | [], _ => by simp [refill, Entry.key]
  | e :: rest, h => by
    rw [List.map_cons, List.mem_cons, not_or] at h
    rw [List.cons_append, refill, if_neg (Ne.symm h.1), refill_append_new contents rest h.2,
      List.cons_append]

/-! ## Insertion -/

/-- A tree that differs in one entry only holds one leaf more, if that entry does. -/
theorem Holds.extend {after : Directory} {rest : List String} {declarations : List Declaration}
    (h : Holds d leaves) (hkeys : after.map Entry.key = (Leaf.heads leaves ++ [key]).eraseDups)
    (hother : ∀ e ∈ after, e.key ≠ key → e ∈ d)
    (hself : ∀ e ∈ after, e.key = key →
      e.Holds (Leaf.behind key leaves ++ [(rest, declarations)])) :
    Holds after (leaves ++ [(key :: rest, declarations)]) := by
  refine .mk _ _ ?_ ?_ ?_
  · intro leaf hleaf
    rcases List.mem_append.mp hleaf with hleaf | hleaf
    · exact h.proper leaf hleaf
    · rw [List.mem_singleton.mp hleaf]
      exact List.cons_ne_nil _ _
  · rw [hkeys, Leaf.heads_append]
  · intro e he
    by_cases hkey : e.key = key
    · rw [hkey, Leaf.behind_append_self]
      exact hself e he hkey
    · rw [Leaf.behind_append_other hkey]
      exact h.entry (hother e he hkey)

/-- A file or directory under a new name at the end. -/
theorem Holds.append {e : Entry} {rest : List String} {declarations : List Declaration}
    (h : Holds d leaves) (hnew : get? d e.key = none) (he : e.Holds [(rest, declarations)]) :
    Holds (d ++ [e]) (leaves ++ [(e.key :: rest, declarations)]) := by
  have hbehind := h.get?_eq_none_iff.mp hnew
  have habsent := Directory.get?_eq_none_iff.mp hnew
  refine h.extend ?_ ?_ ?_
  · rw [List.map_append, h.keys, eraseDups_concat, if_neg (Leaf.behind_eq_nil_iff.mp hbehind)]
    rfl
  · intro other hother hkey
    rcases List.mem_append.mp hother with hmem | hmem
    · exact hmem
    · exact absurd (congrArg Entry.key (List.mem_singleton.mp hmem)) hkey
  · intro other hother hkey
    rcases List.mem_append.mp hother with hmem | hmem
    · exact absurd (hkey ▸ List.mem_map_of_mem hmem) habsent
    · rw [List.mem_singleton.mp hmem, hbehind]
      exact he

/-- Other contents for a directory that is there. -/
theorem Holds.refill {contents : Directory} {rest : List String}
    {declarations : List Declaration} (h : Holds d leaves) (hmem : key ∈ d.map Entry.key)
    (hcontents : Holds contents (Leaf.behind key leaves ++ [(rest, declarations)])) :
    Holds (Directory.refill key contents d) (leaves ++ [(key :: rest, declarations)]) := by
  refine h.extend ?_ ?_ ?_
  · rw [refill_keys, h.keys, eraseDups_concat, if_pos (h.mem_keys_iff.mp hmem)]
  · intro e he hkey
    rcases mem_refill d h.nodup he with rfl | ⟨he, -⟩
    · exact absurd rfl hkey
    · exact he
  · intro e he hkey
    rcases mem_refill d h.nodup he with rfl | ⟨-, hdiffers⟩
    · exact .directory key contents _ hcontents
    · exact absurd hkey hdiffers

section Insertion

variable (declarations : List Declaration) {rest : List String}

theorem get?_append_new {e : Entry} (hnew : get? d e.key = none) :
    get? (d ++ [e]) e.key = some e := by
  rw [get?] at hnew ⊢
  rw [List.find?_append, hnew]
  simp

/-- The way leads through a new directory. -/
theorem insertFile_cons_new (hrest : rest ≠ []) (hnew : get? d key = none) :
    insertFile d declarations (key :: rest) =
      (d ++ [.directory key (insertFile [] declarations rest).1],
        (insertFile [] declarations rest).2) := by
  obtain ⟨next, tail, rfl⟩ := List.exists_cons_of_ne_nil hrest
  have hensure : ensure d key = d ++ [.directory key []] := by simp [ensure, hnew]
  have hget : get? (d ++ [.directory key []]) key = some (.directory key []) :=
    get?_append_new (e := .directory key []) hnew
  rw [insertFile, hensure, hget]
  · dsimp only
    rw [refill_append_new _ d (get?_eq_none_iff.mp hnew)]
  · intro h
    cases h

/-- The way ends at a file. -/
theorem insertFile_cons_file (hrest : rest ≠ []) {name : String} {found : List Declaration}
    (hget : get? d key = some (.file name found)) :
    insertFile d declarations (key :: rest) = (d, false) := by
  obtain ⟨next, tail, rfl⟩ := List.exists_cons_of_ne_nil hrest
  have hensure : ensure d key = d := by simp [ensure, hget]
  rw [insertFile, hensure, hget]
  intro h
  cases h

/-- The way leads through a directory that is there. -/
theorem insertFile_cons_directory (hrest : rest ≠ []) {name : String} {entries : Directory}
    (hget : get? d key = some (.directory name entries)) :
    insertFile d declarations (key :: rest) =
      (refill key (insertFile entries declarations rest).1 d,
        (insertFile entries declarations rest).2) := by
  obtain ⟨next, tail, rfl⟩ := List.exists_cons_of_ne_nil hrest
  have hensure : ensure d key = d := by simp [ensure, hget]
  rw [insertFile, hensure, hget]
  intro h
  cases h

/-- A path that gets in the way of a leaf is refused, and the tree stays as it is. -/
theorem insertFile_of_clash {segments : List String} (h : Holds d leaves)
    (hclash : Leaf.Clashes segments leaves) : insertFile d declarations segments = (d, false) := by
  induction segments generalizing d leaves with
  | nil => rfl
  | cons key rest ih =>
    have hbelow := (Leaf.clashes_cons_iff h.proper).mp hclash
    by_cases hrest : rest = []
    · subst hrest
      have hsome : (get? d key).isSome = true := by
        rw [Option.isSome_iff_ne_none]
        intro hnone
        exact Leaf.clashes_nil_iff.mp hbelow (h.get?_eq_none_iff.mp hnone)
      rw [insertFile, if_pos hsome]
    · cases hget : get? d key with
      | none =>
        obtain ⟨leaf, hleaf, -⟩ := hbelow
        rw [h.get?_eq_none_iff.mp hget] at hleaf
        cases hleaf
      | some e =>
        have hentry := h.holds_of_get? hget
        cases e with
        | file name found => exact insertFile_cons_file declarations hrest hget
        | directory name entries =>
          obtain ⟨-, rfl⟩ := mem_and_key_of_get? hget
          cases hentry with
          | directory _ _ _ hcontents =>
            rw [insertFile_cons_directory declarations hrest hget, ih hcontents hbelow,
              refill_self d hget]

/-- A path that gets in no leaf's way is placed, and the tree holds it as its last leaf. -/
theorem insertFile_of_free {segments : List String} (h : Holds d leaves) (hne : segments ≠ [])
    (hfree : ¬ Leaf.Clashes segments leaves) :
    ∃ after, insertFile d declarations segments = (after, true) ∧
      Holds after (leaves ++ [(segments, declarations)]) := by
  induction segments generalizing d leaves with
  | nil => exact absurd rfl hne
  | cons key rest ih =>
    rw [Leaf.clashes_cons_iff h.proper] at hfree
    by_cases hrest : rest = []
    · subst hrest
      rw [Leaf.clashes_nil_iff, not_not] at hfree
      have hnew := h.get?_eq_none_iff.mpr hfree
      refine ⟨d ++ [.file key declarations], ?_, ?_⟩
      · rw [insertFile, hnew]
        rfl
      · exact h.append (e := .file key declarations) hnew (.file key declarations)
    · cases hget : get? d key with
      | none =>
        have hbehind := h.get?_eq_none_iff.mp hget
        obtain ⟨contents, hinsert, hcontents⟩ := ih holds_nil hrest (by rwa [hbehind] at hfree)
        refine ⟨d ++ [.directory key contents], ?_, ?_⟩
        · rw [insertFile_cons_new declarations hrest hget, hinsert]
        · exact h.append (e := .directory key contents) hget (.directory key contents _ hcontents)
      | some e =>
        have hentry := h.holds_of_get? hget
        have hmem : key ∈ d.map Entry.key := by
          obtain ⟨hmem, hkey⟩ := mem_and_key_of_get? hget
          exact hkey ▸ List.mem_map_of_mem hmem
        cases e with
        | file name found =>
          -- A file on the way is a leaf that begins the path.
          generalize hleaves : Leaf.behind key leaves = below at hentry hfree
          cases hentry with
          | file _ _ => exact absurd ⟨_, List.mem_singleton.mpr rfl, Or.inl List.nil_prefix⟩ hfree
        | directory name entries =>
          cases hentry with
          | directory _ _ _ hentries =>
            obtain ⟨contents, hinsert, hcontents⟩ := ih hentries hrest hfree
            refine ⟨refill key contents d, ?_, h.refill hmem hcontents⟩
            rw [insertFile_cons_directory declarations hrest hget, hinsert]

end Insertion

/-! ## Lookup -/

/-- A list of names leads to what holds the leaves there, and nowhere if there are none. -/
theorem Holds.lookup_cases {path : List String} (h : Holds d leaves) (hpath : path ≠ []) :
    lookup? d path = none ∧ Leaf.under path leaves = [] ∨
      ∃ e, lookup? d path = some e ∧ e.Holds (Leaf.under path leaves) ∧
        Leaf.under path leaves ≠ [] := by
  induction path generalizing d leaves with
  | nil => exact absurd rfl hpath
  | cons key rest ih =>
    rw [Leaf.under_cons]
    cases hget : get? d key with
    | none =>
      rw [h.get?_eq_none_iff.mp hget]
      cases rest <;> simp [lookup?, hget]
    | some e =>
      have hentry := h.holds_of_get? hget
      have hsome : Leaf.behind key leaves ≠ [] := by
        intro hnil
        rw [h.get?_eq_none_iff.mpr hnil] at hget
        cases hget
      cases rest with
      | nil =>
        rw [Leaf.under_root]
        exact Or.inr ⟨e, by rw [lookup?, hget], hentry, hsome⟩
      | cons next tail =>
        cases e with
        | file name found =>
          generalize hleaves : Leaf.behind key leaves = below at hentry
          cases hentry with
          | file _ _ => exact Or.inl ⟨by simp [lookup?, hget], by simp [Leaf.under]⟩
        | directory name entries =>
          have hstep : lookup? d (key :: next :: tail) = lookup? entries (next :: tail) := by
            simp [lookup?, hget]
          rw [hstep]
          cases hentry with
          | directory _ _ _ hcontents => exact ih hcontents (List.cons_ne_nil _ _)

/-- What can stand at a place: a file with its declarations, or a directory. -/
inductive Place where
  | file (declarations : List Declaration)
  | directory
deriving DecidableEq, Repr

/-- What an entry is, without its name and what lies in it. -/
def placeOf : Entry → Place
  | .file _ declarations => .file declarations
  | .directory _ _ => .directory

/-- What a list of names leads to. -/
def placeAt? (d : Directory) (path : List String) : Option Place :=
  (lookup? d path).map placeOf

section Place

variable {path : List String} (h : Holds d leaves) (hpath : path ≠ [])

include h hpath

theorem Holds.placeAt?_cases :
    placeAt? d path = none ∧ Leaf.under path leaves = [] ∨
      (∃ found, placeAt? d path = some (.file found) ∧ Leaf.under path leaves = [([], found)]) ∨
      placeAt? d path = some .directory ∧ Leaf.under path leaves ≠ [] ∧
        ∀ leaf ∈ Leaf.under path leaves, leaf.1 ≠ [] := by
  rcases h.lookup_cases hpath with ⟨hnone, hunder⟩ | ⟨e, hsome, hentry, hunder⟩
  · exact Or.inl ⟨by rw [placeAt?, hnone]; rfl, hunder⟩
  · right
    rw [placeAt?, hsome]
    generalize Leaf.under path leaves = below at hentry hunder
    cases hentry with
    | file _ found => exact Or.inl ⟨found, rfl, rfl⟩
    | directory _ _ _ hcontents => exact Or.inr ⟨rfl, hunder, hcontents.proper⟩

/-- A file stands where a leaf ends. -/
theorem Holds.placeAt?_eq_file_iff {found : List Declaration} :
    placeAt? d path = some (.file found) ↔ (path, found) ∈ leaves := by
  have hmem : (path, found) ∈ leaves ↔ ([], found) ∈ Leaf.under path leaves := by
    rw [Leaf.mem_under_iff, List.append_nil]
  rw [hmem]
  rcases h.placeAt?_cases hpath with ⟨hplace, hunder⟩ | ⟨other, hplace, hunder⟩ |
    ⟨hplace, -, hproper⟩
  · simp [hplace, hunder]
  · simp [hplace, hunder, eq_comm]
  · constructor
    · intro hfile
      rw [hplace] at hfile
      cases hfile
    · intro hend
      exact absurd rfl (hproper _ hend)

/-- A directory stands where a leaf goes on. -/
theorem Holds.placeAt?_eq_directory_iff :
    placeAt? d path = some .directory ↔ ∃ leaf ∈ leaves, path <+: leaf.1 ∧ path ≠ leaf.1 := by
  have hmem : (∃ leaf ∈ leaves, path <+: leaf.1 ∧ path ≠ leaf.1) ↔
      ∃ leaf ∈ Leaf.under path leaves, leaf.1 ≠ [] := by
    constructor
    · rintro ⟨⟨segments, declarations⟩, hleaf, ⟨rest, rfl⟩, hne⟩
      exact ⟨(rest, declarations), Leaf.mem_under_iff.mpr hleaf, by simpa using hne⟩
    · rintro ⟨⟨rest, declarations⟩, hleaf, hne⟩
      exact ⟨_, Leaf.mem_under_iff.mp hleaf, List.prefix_append _ _, by simpa using hne⟩
  rw [hmem]
  rcases h.placeAt?_cases hpath with ⟨hplace, hunder⟩ | ⟨other, hplace, hunder⟩ |
    ⟨hplace, hunder, hproper⟩
  · simp [hplace, hunder]
  · simp [hplace, hunder]
  · obtain ⟨leaf, hleaf⟩ := List.exists_mem_of_ne_nil _ hunder
    exact ⟨fun _ => ⟨leaf, hleaf, hproper leaf hleaf⟩, fun _ => hplace⟩

/-- Nothing stands where no leaf passes. -/
theorem Holds.placeAt?_eq_none_iff :
    placeAt? d path = none ↔ ∀ leaf ∈ leaves, ¬ path <+: leaf.1 := by
  have hmem : (∀ leaf ∈ leaves, ¬ path <+: leaf.1) ↔ Leaf.under path leaves = [] := by
    rw [Leaf.under, List.filterMap_eq_nil_iff]
    simp
  rw [hmem]
  rcases h.placeAt?_cases hpath with ⟨hplace, hunder⟩ | ⟨other, hplace, hunder⟩ |
    ⟨hplace, hunder, hproper⟩
  · simp [hplace, hunder]
  · simp [hplace, hunder]
  · simp [hplace, hunder]

/-- The directory that a list of names leads to holds the leaves below it. -/
theorem Holds.contents {name : String} {contents : Directory}
    (hlookup : lookup? d path = some (.directory name contents)) :
    Holds contents (Leaf.under path leaves) := by
  rcases h.lookup_cases hpath with ⟨hnone, -⟩ | ⟨e, hsome, hentry, -⟩
  · rw [hlookup] at hnone
    cases hnone
  · rw [hlookup, Option.some.injEq] at hsome
    subst hsome
    cases hentry with
    | directory _ _ _ hcontents => exact hcontents

end Place

/-! ## Counting files -/

theorem fileCount_append (d₁ d₂ : Directory) :
    fileCount (d₁ ++ d₂) = fileCount d₁ + fileCount d₂ := by
  induction d₁ with
  | nil => simp [fileCount]
  | cons e rest ih => simp [fileCount, ih, Nat.add_assoc]

theorem fileCount_refill {name : String} {entries : Directory} (contents : Directory) :
    ∀ d : Directory, get? d key = some (.directory name entries) →
      fileCount (refill key contents d) + fileCount entries = fileCount d + fileCount contents
  | [], h => by cases h
  | e :: rest, h => by
    rw [refill]
    split
    · next hkey =>
      rw [get?_cons_self hkey, Option.some.injEq] at h
      rw [h]
      simp only [fileCount, Entry.fileCount]
      omega
    · next hkey =>
      rw [get?_cons_ne hkey] at h
      have hrest := fileCount_refill contents rest h
      simp only [fileCount]
      omega

/-- An insertion adds one file exactly if it succeeds. -/
theorem fileCount_insertFile (declarations : List Declaration) (segments : List String)
    (d : Directory) :
    fileCount (insertFile d declarations segments).1 =
      fileCount d + (insertFile d declarations segments).2.toNat := by
  induction segments generalizing d with
  | nil => rfl
  | cons key rest ih =>
    by_cases hrest : rest = []
    · subst hrest
      rw [insertFile]
      split
      · rfl
      · simp [fileCount_append, fileCount, Entry.fileCount]
    · cases hget : get? d key with
      | none =>
        rw [insertFile_cons_new declarations hrest hget, fileCount_append]
        simp [fileCount, Entry.fileCount, ih]
      | some e =>
        cases e with
        | file name found => rw [insertFile_cons_file declarations hrest hget]; rfl
        | directory name entries =>
          rw [insertFile_cons_directory declarations hrest hget]
          have hrefill := fileCount_refill (insertFile entries declarations rest).1 d hget
          have hinsert := ih entries
          dsimp only
          omega

end Directory

end ProjectOutline
