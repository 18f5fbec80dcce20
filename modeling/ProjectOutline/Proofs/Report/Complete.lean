import ProjectOutline.Proofs.Report.Placement
import ProjectOutline.Proofs.Text.Pieces

/-!
# Reports that leave nothing out

An entry that declares something and has an owner can still be left out, if an earlier entry is in
its way. That cannot happen among entries whose paths are spelled without empty segments and of
which none leads on from another (`placesAll_of_apart`): the owner of a path takes whole segments
off its front, the same for all paths of one package (`split_of_relative?`), and what is left is
apart as the paths were.
-/

namespace ProjectOutline

/-- The segments that a package takes off the front of its paths. -/
def Package.lead (p : Package) : List String :=
  if p.isWhole then [] else Text.split '/' p.trimmedRoot

theorem Package.split_of_relative? {p : Package} {path relative : String}
    (h : p.relative? path = some relative) :
    Text.split '/' path = p.lead ++ Text.split '/' relative := by
  rw [Package.relative?] at h
  rw [Package.lead]
  split at h
  · next hwhole =>
    cases h
    rw [if_pos hwhole, List.nil_append]
  · next hinner =>
    obtain ⟨behind, hbehind, hrelative⟩ := Option.bind_eq_some_iff.mp h
    rw [if_neg hinner, Text.after?_eq_some_iff.mp hbehind, Text.after?_eq_some_iff.mp hrelative,
      Text.split_append_slash]

namespace Report

/-! ## Paths of segments -/

/-- The path has no empty segment, and does not begin with `.`. -/
structure Spelled (path : String) : Prop where
  segment : ∀ piece ∈ Text.split '/' path, piece ≠ ""
  first : (Text.split '/' path).head? ≠ some "."

/-- Neither path is the other or leads on to it. -/
def Apart (p q : String) : Prop :=
  ¬ Text.split '/' p <+: Text.split '/' q ∧ ¬ Text.split '/' q <+: Text.split '/' p

theorem dropDotSlash_eq_self {cs : List Char} (h : (Text.splitChars '/' cs).head? ≠ some ['.']) :
    dropDotSlash cs = cs := by
  unfold dropDotSlash
  split
  · exact absurd (by simp [Text.splitChars]) h
  · rfl

theorem Spelled.plainPath_eq {path : String} (h : Spelled path) : plainPath path = path := by
  rw [plainPath, dropDotSlash_eq_self, String.ofList_toList]
  intro hhead
  apply h.first
  rw [Text.split, List.head?_map, hhead]
  rfl

section Address

variable {packages : List Package} {entry : SourceFile}

theorem Spelled.segments_of_relative? {p : Package} {path relative : String} (h : Spelled path)
    (hrelative : p.relative? path = some relative) :
    Text.split '/' path = p.lead ++ segments relative ∧ segments relative ≠ [] := by
  have hsplit := Package.split_of_relative? hrelative
  have hsegments : segments relative = Text.split '/' relative := by
    refine List.filter_eq_self.mpr fun piece hpiece => decide_eq_true (h.segment piece ?_)
    rw [hsplit]
    exact List.mem_append_right _ hpiece
  rw [hsegments]
  refine ⟨hsplit, fun hnil => ?_⟩
  exact Text.splitChars_ne_nil '/' relative.toList (List.map_eq_nil_iff.mp hnil)

/-- The address of an entry with a proper path: the only question is who owns it. -/
theorem Spelled.address?_eq (h : Spelled entry.path) (hdeclares : entry.declarations ≠ []) :
    address? packages entry =
      (owner? packages (plainPath entry.path) entry.language).map fun owner =>
        ⟨owner.1, segments owner.2, entry.declarations⟩ := by
  rw [address?, if_neg hdeclares]
  cases howner : owner? packages (plainPath entry.path) entry.language with
  | none => rfl
  | some owner =>
    obtain ⟨index, relative⟩ := owner
    obtain ⟨package, -, hrelative, -⟩ := owner?_eq_some howner
    rw [h.plainPath_eq] at hrelative
    exact if_neg (h.segments_of_relative? hrelative).2

/-- An entry with an address is owned by the package at its index. -/
theorem Spelled.owner?_of_address? {p : Placement} (h : Spelled entry.path)
    (hp : address? packages entry = some p) :
    ∃ relative, owner? packages entry.path entry.language = some (p.index, relative) ∧
      p.segments = segments relative := by
  have hdeclares : entry.declarations ≠ [] := by
    intro hnone
    rw [address?, if_pos hnone] at hp
    cases hp
  rw [h.address?_eq hdeclares, h.plainPath_eq, Option.map_eq_some_iff] at hp
  obtain ⟨⟨index, relative⟩, howner, rfl⟩ := hp
  exact ⟨relative, howner, rfl⟩

/-- An address is the path of the entry behind what its package takes off. -/
theorem Spelled.split_of_address? {p : Placement} (h : Spelled entry.path)
    (hp : address? packages entry = some p) :
    ∃ package, packages[p.index]? = some package ∧
      Text.split '/' entry.path = package.lead ++ p.segments := by
  obtain ⟨relative, howner, hsegments⟩ := h.owner?_of_address? hp
  obtain ⟨package, hpackage, hrelative, -⟩ := owner?_eq_some howner
  exact ⟨package, hpackage, hsegments ▸ (h.segments_of_relative? hrelative).1⟩

theorem not_clashes_of_apart {other : SourceFile} {p q : Placement} (hentry : Spelled entry.path)
    (hother : Spelled other.path) (hapart : Apart entry.path other.path)
    (hp : address? packages entry = some p) (hq : address? packages other = some q) :
    ¬ p.Clashes q := by
  rintro ⟨hindex, hclash⟩
  obtain ⟨package, hpackage, hpath⟩ := hentry.split_of_address? hp
  obtain ⟨package', hpackage', hpath'⟩ := hother.split_of_address? hq
  rw [hindex, hpackage'] at hpackage
  obtain rfl := Option.some.inj hpackage
  rw [Apart, hpath, hpath', List.prefix_append_right_inj, List.prefix_append_right_inj] at hapart
  exact hclash.elim hapart.1 hapart.2

end Address

/-! ## Entries that are apart -/

/-- Entries that do not get in each other's way are all placed. -/
theorem foldl_placeNext {packages : List Package} {entries : List SourceFile}
    {placed : List Placement}
    (h : (placed ++ entries.filterMap (address? packages)).Pairwise fun p q => ¬ p.Clashes q) :
    entries.foldl (placeNext packages) placed =
      placed ++ entries.filterMap (address? packages) := by
  induction entries generalizing placed with
  | nil => simp
  | cons entry rest ih =>
    rw [List.foldl_cons]
    cases haddress : address? packages entry with
    | none =>
      rw [List.filterMap_cons_none haddress] at h ⊢
      rw [placeNext, haddress]
      exact ih h
    | some p =>
      rw [List.filterMap_cons_some haddress] at h ⊢
      have hfree : ¬ ∃ q ∈ placed, q.Clashes p := by
        rintro ⟨q, hq, hclash⟩
        exact (List.pairwise_append.mp h).2.2 q hq p List.mem_cons_self hclash
      rw [placeNext, haddress]
      simp only [if_neg hfree]
      rw [ih (by rwa [List.append_assoc, List.singleton_append]), List.append_assoc,
        List.singleton_append]

/-- The entry declares something and some package owns it. -/
def Reportable (packages : List Package) (entry : SourceFile) : Prop :=
  entry.declarations ≠ [] ∧ owner? packages (plainPath entry.path) entry.language ≠ none

instance (packages : List Package) (entry : SourceFile) : Decidable (Reportable packages entry) :=
  inferInstanceAs (Decidable (_ ∧ _))

/-- The report holds every entry that declares something and is owned: as many files as there are
such entries, and each with its declarations at its place in the tree of its owner. -/
structure PlacesAll (entries : List SourceFile) (packages : List Package) : Prop where
  count : (build entries packages).fileCount =
    entries.countP (Reportable (packagesOrWhole packages))
  found : ∀ entry ∈ entries, entry.declarations ≠ [] → ∀ index relative,
    owner? (packagesOrWhole packages) (plainPath entry.path) entry.language =
        some (index, relative) →
      ∃ package tree key, (packagesOrWhole packages)[index]? = some package ∧
        (build entries packages).packages[index]? = some (package, tree) ∧
        Directory.lookup? tree (segments relative) = some (.file key entry.declarations)

theorem Spelled.isSome_address? {packages : List Package} {entry : SourceFile}
    (h : Spelled entry.path) :
    (address? packages entry).isSome = decide (Reportable packages entry) := by
  by_cases hdeclares : entry.declarations = []
  · simp [address?, Reportable, hdeclares]
  · rw [h.address?_eq hdeclares, Option.isSome_map, Bool.eq_iff_iff, Option.isSome_iff_ne_none]
    simp [Reportable, hdeclares]

theorem exists_file_of_placeAt? {tree : Directory} {path : List String}
    {declarations : List Declaration}
    (h : Directory.placeAt? tree path = some (.file declarations)) :
    ∃ key, Directory.lookup? tree path = some (.file key declarations) := by
  rw [Directory.placeAt?, Option.map_eq_some_iff] at h
  obtain ⟨e, hlookup, hplace⟩ := h
  cases e with
  | file key found =>
    cases hplace
    exact ⟨key, hlookup⟩
  | directory key contents => cases hplace

/-- What is placed is the address of an entry. -/
theorem exists_entry_of_mem_placements {packages : List Package} {entries : List SourceFile}
    {p : Placement} (h : p ∈ placements packages entries) :
    ∃ entry ∈ entries, address? packages entry = some p := by
  have hfold : ∀ (entries : List SourceFile) (placed : List Placement),
      p ∈ entries.foldl (placeNext packages) placed →
        p ∈ placed ∨ ∃ entry ∈ entries, address? packages entry = some p := by
    intro entries
    induction entries with
    | nil => exact fun _ hp => Or.inl hp
    | cons entry rest ih =>
      intro placed hp
      rcases ih _ hp with hp | ⟨other, hother, haddress⟩
      · rw [placeNext] at hp
        split at hp
        · exact Or.inl hp
        · next q haddress =>
          split at hp
          · exact Or.inl hp
          · rcases List.mem_append.mp hp with hp | hp
            · exact Or.inl hp
            · obtain rfl := List.mem_singleton.mp hp
              exact Or.inr ⟨entry, List.mem_cons_self, haddress⟩
      · exact Or.inr ⟨other, List.mem_cons_of_mem _ hother, haddress⟩
  rcases hfold entries [] h with hnone | hentry
  · cases hnone
  · exact hentry

/-- Entries with proper paths, of which none leads on from another, are all placed, whatever the
packages are. -/
theorem placesAll_of_apart {entries : List SourceFile} (packages : List Package)
    (hspelled : ∀ entry ∈ entries, Spelled entry.path)
    (hapart : entries.Pairwise fun e f => Apart e.path f.path) : PlacesAll entries packages := by
  have hheld := held_draft entries (packagesOrWhole packages)
  have hplaced : placements (packagesOrWhole packages) entries =
      entries.filterMap (address? (packagesOrWhole packages)) := by
    refine foldl_placeNext (List.Pairwise.filterMap _ ?_ (List.Pairwise.and_mem.mp hapart))
    rintro e f ⟨he, hf, happ⟩ p hp q hq
    exact not_clashes_of_apart (hspelled e he) (hspelled f hf) happ hp hq
  constructor
  case count =>
    rw [build, fileCount_eq_sum _ _ hheld.length, hheld.count, hplaced,
      List.length_filterMap_eq_countP]
    exact List.countP_congr fun entry hentry => by
      rw [(hspelled entry hentry).isSome_address?]
  case found =>
    intro entry hentry hdeclares index relative howner
    obtain ⟨package, hpackage, hrelative, -⟩ := owner?_eq_some howner
    rw [(hspelled entry hentry).plainPath_eq] at hrelative
    have hlt : index < (draft entries (packagesOrWhole packages)).trees.length := by
      rw [hheld.length]
      exact owner?_index_lt howner
    have htree := List.getElem?_eq_getElem hlt
    have hmem : (⟨index, segments relative, entry.declarations⟩ : Placement) ∈
        placements (packagesOrWhole packages) entries := by
      rw [hplaced, List.mem_filterMap]
      refine ⟨entry, hentry, ?_⟩
      rw [(hspelled entry hentry).address?_eq hdeclares, howner]
      rfl
    have hne := ((hspelled entry hentry).segments_of_relative? hrelative).2
    obtain ⟨key, hlookup⟩ := exists_file_of_placeAt?
      (((hheld.holds index _ htree).placeAt?_eq_file_iff hne).mpr (mem_leavesOf_iff.mpr hmem))
    refine ⟨package, _, key, hpackage, ?_, hlookup⟩
    rw [build, List.getElem?_zip_eq_some]
    exact ⟨hpackage, htree⟩

end Report

end ProjectOutline
