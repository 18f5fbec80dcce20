import Mathlib.Algebra.GroupWithZero.Nat
import ProjectOutline.Proofs.Report.LongestRoot
import ProjectOutline.Proofs.Report.Tree

/-!
# The files of a report

Which files a report shows is settled without any tree: `placements` goes through the entries in
order and keeps those that declare something, belong to a package, have a segment left below its
root, and get in no earlier one's way. The draft that `build` works on holds exactly these files
(`Held.place` for one entry, `held_draft` for all), and the trees of the report are read off from
there.

The place that an entry asks for is also told without the functions that compute it (`Addressed`):
by the characters of its path and by the package with the longest root.
-/

namespace ProjectOutline.Report

/-- A file at its place: the position of its package, its segments below the package root, and what
it declares. -/
structure Placement where
  index : Nat
  segments : List String
  declarations : List Declaration
deriving DecidableEq, Repr

/-- Two files get in each other's way: they are in one package, and the segments of one are those of
the other or begin them. -/
def Placement.Clashes (p q : Placement) : Prop :=
  p.index = q.index ∧ (p.segments <+: q.segments ∨ q.segments <+: p.segments)

instance (p q : Placement) : Decidable (p.Clashes q) :=
  inferInstanceAs (Decidable (_ ∧ _))

/-- The place an entry asks for. There is none if it declares nothing, if no package owns it, or if
its path below the package root has no segment. -/
def address? (packages : List Package) (entry : SourceFile) : Option Placement :=
  if entry.declarations = [] then none
  else
    (owner? packages (plainPath entry.path) entry.language).bind fun (index, relative) =>
      if segments relative = [] then none
      else some ⟨index, segments relative, entry.declarations⟩

/-- The files placed after one more entry: it is placed unless an earlier one is in its way. -/
def placeNext (packages : List Package) (placed : List Placement) (entry : SourceFile) :
    List Placement :=
  match address? packages entry with
  | none => placed
  | some p => if ∃ q ∈ placed, q.Clashes p then placed else placed ++ [p]

/-- The files that are placed, in the order of their entries. -/
def placements (packages : List Package) (entries : List SourceFile) : List Placement :=
  entries.foldl (placeNext packages) []

/-! ## Places, told from the paths -/

/-- The second path is the first without the `./` that it may begin with, once or more often. -/
structure IsPlain (path plain : String) : Prop where
  lead : ∃ n, path.toList = (List.replicate n ['.', '/']).flatten ++ plain.toList
  rest : ¬ ['.', '/'] <+: plain.toList

/-- The segments of a path: its pieces between slashes, without the empty ones. -/
inductive Segmented : List Char → List String → Prop where
  | nil : Segmented [] []
  | slash {cs : List Char} {segments : List String} (h : Segmented cs segments) :
      Segmented ('/' :: cs) segments
  | last {name : List Char} (hne : name ≠ []) (hslash : '/' ∉ name) :
      Segmented name [String.ofList name]
  | next {name cs : List Char} {segments : List String} (hne : name ≠ []) (hslash : '/' ∉ name)
      (h : Segmented cs segments) :
      Segmented (name ++ '/' :: cs) (String.ofList name :: segments)

/-- The place of an entry that declares something: in the package with the longest root that
contains its plain path, by the segments below that root. -/
structure Addressed (packages : List Package) (entry : SourceFile) (p : Placement) : Prop where
  declares : entry.declarations ≠ []
  declarations : p.declarations = entry.declarations
  owned : ∃ path package relative, IsPlain entry.path path ∧ packages[p.index]? = some package ∧
    package.Contains path relative ∧
    IsLeast {j | Longest packages path entry.language j} p.index ∧
    Segmented relative.toList p.segments
  proper : p.segments ≠ []

theorem dropDotSlash_of_lead {cs : List Char} (h : ¬ ['.', '/'] <+: cs) (n : Nat) :
    dropDotSlash ((List.replicate n ['.', '/']).flatten ++ cs) = cs := by
  induction n with
  | zero =>
    rw [List.replicate_zero, List.flatten_nil, List.nil_append]
    unfold dropDotSlash
    split
    · exact absurd (List.prefix_append ['.', '/'] _) h
    · rfl
  | succ n ih =>
    rw [List.replicate_succ, List.flatten_cons, List.append_assoc]
    exact ih

theorem exists_lead_dropDotSlash (cs : List Char) :
    (∃ n, cs = (List.replicate n ['.', '/']).flatten ++ dropDotSlash cs) ∧
      ¬ ['.', '/'] <+: dropDotSlash cs := by
  fun_induction dropDotSlash cs with
  | case1 rest ih =>
    obtain ⟨⟨n, hn⟩, hrest⟩ := ih
    refine ⟨⟨n + 1, ?_⟩, hrest⟩
    rw [List.replicate_succ, List.flatten_cons, List.append_assoc, ← hn]
    rfl
  | case2 cs hcs =>
    refine ⟨⟨0, rfl⟩, ?_⟩
    rintro ⟨rest, rfl⟩
    exact hcs rest rfl

theorem plainPath_eq_iff {path plain : String} : plainPath path = plain ↔ IsPlain path plain := by
  constructor
  · rintro rfl
    obtain ⟨hlead, hrest⟩ := exists_lead_dropDotSlash path.toList
    rw [← String.toList_ofList (l := dropDotSlash path.toList), ← plainPath] at hlead hrest
    exact ⟨hlead, hrest⟩
  · rintro ⟨⟨n, hn⟩, hrest⟩
    rw [plainPath, hn, dropDotSlash_of_lead hrest, String.ofList_toList]

theorem segments_append_slash (name cs : List Char) :
    segments (String.ofList (name ++ '/' :: cs)) =
      segments (String.ofList name) ++ segments (String.ofList cs) := by
  simp only [segments, Text.split, String.toList_ofList, Text.splitChars_append_separator,
    List.map_append, List.filter_append]

theorem segments_of_piece {name : List Char} (hne : name ≠ []) (hslash : '/' ∉ name) :
    segments (String.ofList name) = [String.ofList name] := by
  have hname : String.ofList name ≠ "" := by
    intro hempty
    exact hne (String.ofList_injective hempty)
  simp [segments, Text.split, String.toList_ofList, Text.splitChars_of_not_mem hslash, hname]

theorem Segmented.segments_eq {cs : List Char} {found : List String} (h : Segmented cs found) :
    segments (String.ofList cs) = found := by
  induction h with
  | nil => rfl
  | @slash cs _ _ ih =>
    have hempty : segments (String.ofList []) = [] := rfl
    rw [← ih, ← List.nil_append ('/' :: cs), segments_append_slash, hempty, List.nil_append]
  | last hne hslash => exact segments_of_piece hne hslash
  | next hne hslash _ ih =>
    rw [segments_append_slash, segments_of_piece hne hslash, ih, List.singleton_append]

/-- Pieces that are joined by slashes, the empty ones left out. -/
theorem segmented_intercalate {pieces : List (List Char)} (hne : pieces ≠ [])
    (h : ∀ piece ∈ pieces, '/' ∉ piece) :
    Segmented (['/'].intercalate pieces) ((pieces.map String.ofList).filter (· ≠ "")) := by
  induction pieces with
  | nil => exact absurd rfl hne
  | cons piece rest ih =>
    have hslash := h piece List.mem_cons_self
    have hshown : piece ≠ [] → String.ofList piece ≠ "" :=
      fun hpiece hempty => hpiece (String.ofList_injective hempty)
    cases rest with
    | nil =>
      rw [List.intercalate_singleton]
      by_cases hpiece : piece = []
      · rw [hpiece]
        exact .nil
      · rw [List.map_singleton, List.filter_cons_of_pos (by simpa using hshown hpiece)]
        exact .last hpiece hslash
    | cons next others =>
      have hrest := ih (List.cons_ne_nil _ _) fun p hp => h p (List.mem_cons_of_mem _ hp)
      rw [List.intercalate_cons_cons, List.append_assoc, List.singleton_append]
      by_cases hpiece : piece = []
      · rw [hpiece]
        exact .slash hrest
      · rw [List.map_cons, List.filter_cons_of_pos (by simpa using hshown hpiece)]
        exact .next hpiece hslash hrest

theorem segments_eq_iff {path : String} {found : List String} :
    segments path = found ↔ Segmented path.toList found := by
  constructor
  · rintro rfl
    have h := segmented_intercalate (Text.splitChars_ne_nil '/' path.toList)
      fun _ => Text.not_mem_of_mem_splitChars
    rwa [Text.intercalate_splitChars] at h
  · intro h
    have hfound := h.segments_eq
    rwa [String.ofList_toList] at hfound

/-- The place that is computed for an entry is the one told from its path. -/
theorem address?_eq_some_iff {packages : List Package} {entry : SourceFile} {p : Placement} :
    address? packages entry = some p ↔ Addressed packages entry p := by
  rw [address?]
  constructor
  · intro h
    split at h
    · cases h
    next hdeclares =>
    obtain ⟨⟨index, relative⟩, howner, h⟩ := Option.bind_eq_some_iff.mp h
    obtain ⟨package, hpackage, hcontains, hleast⟩ := owner?_eq_some_iff.mp howner
    dsimp only at h
    split at h
    · cases h
    next hproper =>
    cases h
    exact ⟨hdeclares, rfl, ⟨_, package, relative, plainPath_eq_iff.mp rfl, hpackage, hcontains,
      hleast, segments_eq_iff.mp rfl⟩, hproper⟩
  · rintro ⟨hdeclares, hdeclarations, ⟨path, package, relative, hplain, hpackage, hcontains,
      hleast, hsegmented⟩, hproper⟩
    have howner := owner?_eq_some_iff.mpr ⟨package, hpackage, hcontains, hleast⟩
    have hsegments := segments_eq_iff.mpr hsegmented
    rw [if_neg hdeclares, plainPath_eq_iff.mpr hplain, howner, Option.bind_some]
    dsimp only
    rw [hsegments, if_neg hproper, ← hdeclarations]

/-! ## Leaves of one package -/

/-- The leaves of the tree of one package. -/
def leavesOf (index : Nat) (placed : List Placement) : List Leaf :=
  placed.filterMap fun p => if p.index = index then some (p.segments, p.declarations) else none

theorem mem_leavesOf_iff {index : Nat} {placed : List Placement} {segments : List String}
    {declarations : List Declaration} :
    (segments, declarations) ∈ leavesOf index placed ↔
      ⟨index, segments, declarations⟩ ∈ placed := by
  rw [leavesOf, List.mem_filterMap]
  constructor
  · rintro ⟨p, hmem, hp⟩
    split at hp
    · next hindex =>
      simp only [Option.some.injEq, Prod.mk.injEq] at hp
      obtain ⟨rfl, rfl⟩ := hp
      rw [← hindex]
      exact hmem
    · cases hp
  · intro hmem
    exact ⟨_, hmem, by simp⟩

theorem clashes_leavesOf_iff {placed : List Placement} {p : Placement} :
    Leaf.Clashes p.segments (leavesOf p.index placed) ↔ ∃ q ∈ placed, q.Clashes p := by
  constructor
  · rintro ⟨⟨segments, declarations⟩, hleaf, hbegin⟩
    exact ⟨_, mem_leavesOf_iff.mp hleaf, rfl, hbegin⟩
  · rintro ⟨⟨index, segments, declarations⟩, hmem, hindex, hbegin⟩
    dsimp only at hindex
    subst hindex
    exact ⟨_, mem_leavesOf_iff.mpr hmem, hbegin⟩

/-! ## The draft -/

/-- The trees hold the files placed so far: one tree a package, each with the files of its package,
and no other file. -/
structure Held (packages : List Package) (trees : List Directory) (placed : List Placement) :
    Prop where
  length : trees.length = packages.length
  inside : ∀ p ∈ placed, p.index < packages.length
  holds : ∀ i tree, trees[i]? = some tree → Directory.Holds tree (leavesOf i placed)
  count : (trees.map Directory.fileCount).sum = placed.length

theorem sum_fileCount_set {tree : Directory} (after : Directory) :
    ∀ (trees : List Directory) (i : Nat), trees[i]? = some tree →
      ((trees.set i after).map Directory.fileCount).sum + Directory.fileCount tree =
        (trees.map Directory.fileCount).sum + Directory.fileCount after
  | [], _, h => by simp at h
  | first :: rest, 0, h => by
    simp only [List.getElem?_cons_zero, Option.some.injEq] at h
    subst h
    simp only [List.set_cons_zero, List.map_cons, List.sum_cons]
    omega
  | first :: rest, i + 1, h => by
    have hrest := sum_fileCount_set after rest i (by simpa using h)
    simp only [List.set_cons_succ, List.map_cons, List.sum_cons]
    omega

section Step

variable {packages : List Package} {trees : List Directory} {placed : List Placement}

/-- One file more in one tree. -/
theorem Held.set {tree after : Directory} {p : Placement} (h : Held packages trees placed)
    (htree : trees[p.index]? = some tree)
    (hafter : Directory.Holds after
      (leavesOf p.index placed ++ [(p.segments, p.declarations)]))
    (hcount : Directory.fileCount after = Directory.fileCount tree + 1) :
    Held packages (trees.set p.index after) (placed ++ [p]) := by
  have hindex := (List.getElem?_eq_some_iff.mp htree).1
  refine ⟨by rw [List.length_set, h.length], ?_, ?_, ?_⟩
  · intro q hq
    rcases List.mem_append.mp hq with hq | hq
    · exact h.inside q hq
    · rw [List.mem_singleton.mp hq, ← h.length]
      exact hindex
  · intro i other hother
    by_cases hi : p.index = i
    · subst hi
      rw [List.getElem?_set_self hindex, Option.some.injEq] at hother
      rw [← hother, leavesOf, List.filterMap_append, ← leavesOf]
      simpa using hafter
    · rw [List.getElem?_set_ne hi] at hother
      rw [leavesOf, List.filterMap_append, ← leavesOf]
      simpa [hi] using h.holds i other hother
  · have hsum := sum_fileCount_set after trees p.index htree
    rw [List.length_append, List.length_singleton, ← h.count]
    omega

/-- The insertion of an entry with an address: it is refused if an earlier file is in the way, and
placed otherwise. -/
theorem Held.insert {tree : Directory} {p : Placement} (h : Held packages trees placed)
    (htree : trees[p.index]? = some tree) (hne : p.segments ≠ []) :
    Held packages (trees.set p.index (Directory.insertFile tree p.declarations p.segments).1)
      (if ∃ q ∈ placed, q.Clashes p then placed else placed ++ [p]) := by
  have hholds := h.holds p.index tree htree
  split
  · next hclash =>
    obtain ⟨hlt, hget⟩ := List.getElem?_eq_some_iff.mp htree
    rw [Directory.insertFile_of_clash p.declarations hholds (clashes_leavesOf_iff.mpr hclash),
      ← hget, List.set_getElem_self]
    exact h
  · next hfree =>
    rw [← clashes_leavesOf_iff] at hfree
    obtain ⟨after, hinsert, hafter⟩ :=
      Directory.insertFile_of_free p.declarations hholds hne hfree
    have hcount := Directory.fileCount_insertFile p.declarations p.segments tree
    rw [hinsert] at hcount ⊢
    exact h.set htree hafter hcount

/-- One entry, placed or not. -/
theorem Held.place {draft : Draft} (h : Held packages draft.trees placed) (entry : SourceFile) :
    Held packages (draft.place packages entry).trees (placeNext packages placed entry) := by
  rw [Draft.place, placeNext, address?]
  split
  · exact h
  · dsimp only
    cases howner : owner? packages (plainPath entry.path) entry.language with
    | none => exact h
    | some owner =>
      obtain ⟨index, relative⟩ := owner
      -- The tree of an owner is always there, so the fallback of `place` is never taken.
      have hindex : index < draft.trees.length := by
        rw [h.length]
        exact owner?_index_lt howner
      have htree := List.getElem?_eq_getElem hindex
      simp only [Option.bind_some, htree]
      by_cases hsegments : segments relative = []
      · rw [if_pos hsegments, hsegments, Directory.insertFile, List.set_getElem_self]
        exact h
      · rw [if_neg hsegments]
        exact h.insert (p := ⟨index, segments relative, entry.declarations⟩) htree hsegments

end Step

theorem held_draft (entries : List SourceFile) (packages : List Package) :
    Held packages (draft entries packages).trees (placements packages entries) := by
  have hfold : ∀ (draft : Draft) (placed : List Placement), Held packages draft.trees placed →
      Held packages (entries.foldl (Draft.place packages) draft).trees
        (entries.foldl (placeNext packages) placed) := by
    induction entries with
    | nil => exact fun _ _ h => h
    | cons entry rest ih => exact fun draft placed h => ih _ _ (h.place entry)
  apply hfold
  refine ⟨by simp, by simp, ?_, by simp [Directory.fileCount]⟩
  intro i tree htree
  rw [List.getElem?_map, Option.map_eq_some_iff] at htree
  obtain ⟨-, -, rfl⟩ := htree
  exact Directory.holds_nil

/-! ## The report -/

/-- The segment behind a path, if a file of that package lies below it. -/
def nextSegment (index : Nat) (path : List String) (p : Placement) : Option String :=
  if p.index = index ∧ path <+: p.segments then p.segments[path.length]? else none

/-- The directory that a list of names leads to; no names lead to the tree itself. -/
def LeadsTo (tree : Directory) (path : List String) (contents : Directory) : Prop :=
  path = [] ∧ contents = tree ∨
    ∃ name, Directory.lookup? tree path = some (.directory name contents)

/-- The tree of the package at a position shows the placed files of that package and nothing else:
a file where one ends, a directory where one goes on, and in every directory each name once, in the
order in which the first file with it was placed. -/
structure Shows (index : Nat) (placed : List Placement) (tree : Directory) : Prop where
  file : ∀ path found, path ≠ [] →
    (Directory.placeAt? tree path = some (.file found) ↔ ⟨index, path, found⟩ ∈ placed)
  directory : ∀ path, path ≠ [] →
    (Directory.placeAt? tree path = some .directory ↔
      ∃ p ∈ placed, p.index = index ∧ path <+: p.segments ∧ path ≠ p.segments)
  nothing : ∀ path, path ≠ [] →
    (Directory.placeAt? tree path = none ↔
      ∀ p ∈ placed, p.index = index → ¬ path <+: p.segments)
  distinct : ∀ path contents, LeadsTo tree path contents → (contents.map Entry.key).Nodup
  order : ∀ path contents, LeadsTo tree path contents →
    contents.map Entry.key = (placed.filterMap (nextSegment index path)).eraseDups

theorem heads_under_leavesOf (index : Nat) (path : List String) (placed : List Placement) :
    Leaf.heads (Leaf.under path (leavesOf index placed)) =
      placed.filterMap (nextSegment index path) := by
  rw [Leaf.heads_under, leavesOf, List.filterMap_filterMap]
  congr 1
  funext p
  rw [nextSegment]
  by_cases hindex : p.index = index <;> simp [hindex]

theorem exists_leaf_iff {index : Nat} {placed : List Placement} {P : List String → Prop} :
    (∃ leaf ∈ leavesOf index placed, P leaf.1) ↔
      ∃ p ∈ placed, p.index = index ∧ P p.segments := by
  constructor
  · rintro ⟨⟨segments, declarations⟩, hleaf, hP⟩
    exact ⟨_, mem_leavesOf_iff.mp hleaf, rfl, hP⟩
  · rintro ⟨⟨i, segments, declarations⟩, hp, rfl, hP⟩
    exact ⟨_, mem_leavesOf_iff.mpr hp, hP⟩

theorem holds_of_leadsTo {tree contents : Directory} {path : List String} {leaves : List Leaf}
    (h : Directory.Holds tree leaves) (hleads : LeadsTo tree path contents) :
    Directory.Holds contents (Leaf.under path leaves) := by
  rcases hleads with ⟨rfl, rfl⟩ | ⟨name, hlookup⟩
  · rw [Leaf.under_root]
    exact h
  · have hpath : path ≠ [] := by
      rintro rfl
      cases hlookup
    exact h.contents hpath hlookup

theorem shows_of_holds {index : Nat} {placed : List Placement} {tree : Directory}
    (h : Directory.Holds tree (leavesOf index placed)) : Shows index placed tree where
  file path found hpath := by rw [h.placeAt?_eq_file_iff hpath, mem_leavesOf_iff]
  directory path hpath := by
    rw [h.placeAt?_eq_directory_iff hpath]
    exact exists_leaf_iff (P := fun segments => path <+: segments ∧ path ≠ segments)
  nothing path hpath := by
    rw [h.placeAt?_eq_none_iff hpath]
    constructor
    · rintro hnone ⟨i, segments, declarations⟩ hp rfl hbegin
      exact hnone _ (mem_leavesOf_iff.mpr hp) hbegin
    · rintro hnone ⟨segments, declarations⟩ hleaf
      exact hnone _ (mem_leavesOf_iff.mp hleaf) rfl
  distinct path contents hleads := (holds_of_leadsTo h hleads).nodup
  order path contents hleads := by
    rw [(holds_of_leadsTo h hleads).keys, heads_under_leavesOf]

theorem fileCount_eq_sum (packages : List Package) (trees : List Directory)
    (hlength : trees.length = packages.length) :
    Report.fileCount ⟨packages.zip trees⟩ = (trees.map Directory.fileCount).sum := by
  induction packages generalizing trees with
  | nil =>
    rw [List.length_eq_zero_iff.mp hlength]
    rfl
  | cons package rest ih =>
    cases trees with
    | nil => cases hlength
    | cons tree others =>
      have hrest := ih others (by simpa using hlength)
      simp only [Report.fileCount] at hrest ⊢
      simp only [List.zip_cons_cons, List.foldr_cons, List.map_cons, List.sum_cons, hrest]

/-- **The report shows the placed files, all of them and no others.** It has the given packages in
their order, or the one implicit package; the tree at each position shows the files placed in the
package at that position; and as many files are counted as are placed. Where a file can be placed is
told from its path and the roots of the packages. -/
theorem build_shows_placements (entries : List SourceFile) (packages : List Package) :
    (build entries packages).packages.map Prod.fst =
        (if packages = [] then [⟨".", .js⟩] else packages) ∧
      (∀ i package tree, (build entries packages).packages[i]? = some (package, tree) →
        Shows i (placements (packagesOrWhole packages) entries) tree) ∧
      (build entries packages).fileCount =
        (placements (packagesOrWhole packages) entries).length ∧
      ∀ entry p, address? (packagesOrWhole packages) entry = some p ↔
        Addressed (packagesOrWhole packages) entry p := by
  have hheld := held_draft entries (packagesOrWhole packages)
  refine ⟨?_, ?_, ?_, fun entry p => address?_eq_some_iff⟩
  · rw [build, List.map_fst_zip (Nat.le_of_eq hheld.length.symm)]
    rfl
  · intro i package tree hget
    rw [build, List.getElem?_zip_eq_some] at hget
    exact shows_of_holds (hheld.holds i tree hget.2)
  · rw [build, fileCount_eq_sum _ _ hheld.length, hheld.count]

/-- Files of two packages. The third is where the second needs a directory, the fourth declares
nothing, and the last is at the place of the first. -/
def clashingEntries : List SourceFile :=
  [⟨"././api/v1//a.py", .python, [.function "f"]⟩, ⟨"src/b.js", .javascript, [.classDef "B" ["m"]]⟩,
    ⟨"./src", .javascript, [.function "s"]⟩, ⟨"src/c.js", .javascript, []⟩,
    ⟨"api/v1/b.py", .python, [.function "g"]⟩, ⟨"api/v1/a.py", .python, [.function "h"]⟩]

def clashingPackages : List Package := [⟨".", .js⟩, ⟨"api/", .py⟩]

def clashingPlacements : List Placement :=
  [⟨1, ["v1", "a.py"], [.function "f"]⟩, ⟨0, ["src", "b.js"], [.classDef "B" ["m"]]⟩,
    ⟨1, ["v1", "b.py"], [.function "g"]⟩]

/-- Three of the files are placed, each in its package and below its directories. -/
theorem build_shows_placements_clashing :
    placements clashingPackages clashingEntries = clashingPlacements ∧
      (∃ whole api, (build clashingEntries clashingPackages).packages =
          [(⟨".", .js⟩, whole), (⟨"api/", .py⟩, api)] ∧
        Shows 0 clashingPlacements whole ∧ Shows 1 clashingPlacements api) ∧
      (build clashingEntries clashingPackages).fileCount = 3 ∧
      Addressed clashingPackages ⟨"././api/v1//a.py", .python, [.function "f"]⟩
        ⟨1, ["v1", "a.py"], [.function "f"]⟩ ∧
      (build clashingEntries clashingPackages).render =
        "## Package (js): `.`\n\n- src/\n  - b.js\n    - B\n      - m\n\n" ++
          "## Package (py): `api/`\n\n- v1/\n  - a.py\n    - f\n  - b.py\n    - g\n\n" := by
  have hplaced : placements clashingPackages clashingEntries = clashingPlacements := by
    decide +kernel
  obtain ⟨hpackages, hshows, hcount, haddressed⟩ :=
    build_shows_placements clashingEntries clashingPackages
  have hgiven : packagesOrWhole clashingPackages = clashingPackages := rfl
  rw [hgiven, hplaced] at hshows hcount
  rw [hgiven] at haddressed
  obtain ⟨⟨_, whole⟩, rest, hbuild, rfl, hrest⟩ := List.map_eq_cons_iff.mp hpackages
  obtain ⟨⟨_, api⟩, _, rfl, rfl, hnone⟩ := List.map_eq_cons_iff.mp hrest
  rw [List.map_eq_nil_iff.mp hnone] at hbuild
  refine ⟨hplaced, ⟨whole, api, hbuild, hshows 0 ⟨".", .js⟩ whole ?_,
    hshows 1 ⟨"api/", .py⟩ api ?_⟩, hcount, (haddressed _ _).mp ?_, ?_⟩
  · rw [hbuild]
    rfl
  · rw [hbuild]
    rfl
  · decide +kernel
  · decide +kernel

end ProjectOutline.Report
