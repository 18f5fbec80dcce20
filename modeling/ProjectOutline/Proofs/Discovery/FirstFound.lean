import Mathlib.Data.List.Basic
import Mathlib.Data.List.Induction
import ProjectOutline.Discovery

/-!
# What was found first

Packages and source files are found again and again, and count where they were found first. Both are
kept by a fold that passes by what it has met before: packages as such, files by their components.
`FirstsBy` says without a fold which members of a list are left: there is one for every key, it is
the first with its key, and they stand in the order of these first places. The two folds are shown
to keep such members (`firstsBy_firsts`, `exists_firstsBy_gather`).
-/

namespace ProjectOutline.Discovery

variable {α κ : Type} [DecidableEq κ]

/-- The place in a list at which a key stands first. -/
def firstPlace (key : α → κ) (xs : List α) (k : κ) : Nat :=
  (xs.map key).idxOf k

/-- The members of `xs` that are the first with their key, in their order. -/
structure FirstsBy (key : α → κ) (xs ys : List α) : Prop where
  covers : ∀ x ∈ xs, key x ∈ ys.map key
  first : ∀ y ∈ ys, xs[firstPlace key xs (key y)]? = some y
  ordered : ys.Pairwise fun y z => firstPlace key xs (key y) < firstPlace key xs (key z)

namespace FirstsBy

variable {key : α → κ} {xs ys : List α} {x y : α}

theorem nil (key : α → κ) : FirstsBy key [] [] where
  covers := by simp
  first := by simp
  ordered := List.Pairwise.nil

theorem mem (h : FirstsBy key xs ys) (hy : y ∈ ys) : y ∈ xs :=
  List.mem_of_getElem? (h.first y hy)

/-- Different members have different keys. -/
theorem distinct (h : FirstsBy key xs ys) : ys.Pairwise fun y z => key y ≠ key z := by
  apply h.ordered.imp
  intro y z hlt heq
  rw [heq] at hlt
  exact Nat.lt_irrefl _ hlt

/-- What follows in the list does not move the first place of a key that was met. -/
theorem firstPlace_append (hy : y ∈ xs) (more : List α) :
    firstPlace key (xs ++ more) (key y) = firstPlace key xs (key y) := by
  unfold firstPlace
  rw [List.map_append, List.idxOf_append_of_mem (List.mem_map_of_mem hy)]

theorem firstPlace_lt (hy : y ∈ xs) : firstPlace key xs (key y) < xs.length := by
  have hlt := List.idxOf_lt_length_of_mem (List.mem_map_of_mem (f := key) hy)
  simpa [firstPlace] using hlt

/-- The members that were kept are still first when the list goes on. -/
theorem first_append (h : FirstsBy key xs ys) (hy : y ∈ ys) (more : List α) :
    (xs ++ more)[firstPlace key (xs ++ more) (key y)]? = some y := by
  have hmem := h.mem hy
  rw [firstPlace_append hmem, List.getElem?_append_left (firstPlace_lt hmem)]
  exact h.first y hy

theorem ordered_append (h : FirstsBy key xs ys) (more : List α) :
    ys.Pairwise fun y z =>
      firstPlace key (xs ++ more) (key y) < firstPlace key (xs ++ more) (key z) := by
  refine (List.Pairwise.and_mem.mp h.ordered).imp ?_
  intro y z hyz
  rw [firstPlace_append (h.mem hyz.1), firstPlace_append (h.mem hyz.2.1)]
  exact hyz.2.2

/-- A key that was met before adds nothing. -/
theorem concat_old (h : FirstsBy key xs ys) (hx : key x ∈ ys.map key) :
    FirstsBy key (xs ++ [x]) ys where
  covers := by
    intro z hz
    rcases List.mem_append.mp hz with hz | hz
    · exact h.covers z hz
    · rw [List.mem_singleton.mp hz]
      exact hx
  first := fun y hy => h.first_append hy [x]
  ordered := h.ordered_append [x]

/-- A new key adds its member at the end. -/
theorem concat_new (h : FirstsBy key xs ys) (hx : key x ∉ ys.map key) :
    FirstsBy key (xs ++ [x]) (ys ++ [x]) := by
  have hnew : key x ∉ xs.map key := by
    intro hmem
    obtain ⟨z, hz, hkey⟩ := List.mem_map.mp hmem
    exact hx (hkey ▸ h.covers z hz)
  have hplace : firstPlace key (xs ++ [x]) (key x) = xs.length := by
    unfold firstPlace
    rw [List.map_append, List.idxOf_append_of_notMem hnew]
    simp
  constructor
  case covers =>
    intro z hz
    rw [List.map_append]
    rcases List.mem_append.mp hz with hz | hz
    · exact List.mem_append_left _ (h.covers z hz)
    · rw [List.mem_singleton.mp hz]
      simp
  case first =>
    intro y hy
    rcases List.mem_append.mp hy with hy | hy
    · exact h.first_append hy [x]
    · rw [List.mem_singleton.mp hy, hplace]
      simp
  case ordered =>
    refine List.pairwise_append.mpr ⟨h.ordered_append [x], List.pairwise_singleton .., ?_⟩
    intro y hy z hz
    rw [List.mem_singleton.mp hz, hplace, firstPlace_append (h.mem hy)]
    exact firstPlace_lt (h.mem hy)

end FirstsBy

/-! ## Packages -/

theorem firsts_concat {α : Type} [DecidableEq α] (xs : List α) (x : α) :
    firsts (xs ++ [x]) = if x ∈ firsts xs then firsts xs else firsts xs ++ [x] := by
  rw [firsts, List.foldl_append]
  rfl

theorem firstsBy_firsts {α : Type} [DecidableEq α] (xs : List α) :
    FirstsBy id xs (firsts xs) := by
  induction xs using List.reverseRecOn with
  | nil => exact FirstsBy.nil id
  | append_singleton xs x ih =>
    rw [firsts_concat]
    split
    · next hold => exact ih.concat_old (by simpa using hold)
    · next hnew => exact ih.concat_new (by simpa using hnew)

/-! ## Source files -/

/-- A file, and the directory to scan in which it was found. -/
abbrev Find := ScanRoot × Path

/-- What directories to scan hold, file by file. -/
def finds (found : List (ScanRoot × List Path)) : List Find :=
  found.flatMap fun item => item.2.map fun path => (item.1, path)

/-- The files among them that some grammar reads. -/
def readable (found : List Find) : List Find :=
  found.filter fun find => (Grammar.ofPath? find.2).isSome

/-- The components of a file. -/
def Find.components (find : Find) : List Path.Component :=
  find.2.components

/-- A file as a source, if it lies below the directory in which it was found. -/
def Find.source? (find : Find) : Option SourcePath :=
  (display? find.1 find.2).map (SourcePath.mk find.2)

theorem foldl_finds (found : List (ScanRoot × List Path)) (g : Gathered) :
    found.foldl (fun g item => item.2.foldl (Gathered.add item.1) g) g =
      (finds found).foldl (fun g find => g.add find.1 find.2) g := by
  induction found generalizing g with
  | nil => rfl
  | cons item rest ih =>
    have hfinds : finds (item :: rest) =
        item.2.map (fun path => (item.1, path)) ++ finds rest := rfl
    rw [List.foldl_cons, ih, hfinds, List.foldl_append, List.foldl_map]

/-- The files that were seen, and the sources among them, are those that were found first. -/
structure Gathered.Follows (g : Gathered) (found kept : List Find) : Prop where
  firsts : FirstsBy Find.components (readable found) kept
  seen : g.seen = kept.map Find.components
  sources : g.sources = kept.filterMap Find.source?

theorem Gathered.Follows.add {g : Gathered} {found kept : List Find} (h : g.Follows found kept)
    (find : Find) : ∃ kept', (g.add find.1 find.2).Follows (found ++ [find]) kept' := by
  unfold Gathered.add
  cases hgrammar : Grammar.ofPath? find.2 with
  | none =>
    have hsame : readable (found ++ [find]) = readable found := by
      simp [readable, hgrammar]
    refine ⟨kept, ?_, h.seen, h.sources⟩
    rw [hsame]
    exact h.firsts
  | some grammar =>
    have hmore : readable (found ++ [find]) = readable found ++ [find] := by
      simp [readable, hgrammar]
    by_cases hseen : find.2.components ∈ g.seen
    · rw [if_pos (by simp [hseen])]
      refine ⟨kept, ?_, h.seen, h.sources⟩
      rw [hmore]
      exact h.firsts.concat_old (h.seen ▸ hseen)
    · rw [if_neg (by simp [hseen])]
      refine ⟨kept ++ [find], ?_, ?_, ?_⟩
      · rw [hmore]
        exact h.firsts.concat_new (h.seen ▸ hseen)
      · simp [h.seen, Find.components]
      · have hlast : [find].filterMap Find.source? = find.source?.toList := by
          cases hsource : find.source? <;> simp [hsource]
        rw [List.filterMap_append, hlast, h.sources]
        rfl

theorem exists_follows (found : List Find) :
    ∃ kept, (found.foldl (fun g find => Gathered.add find.1 g find.2) ⟨[], []⟩).Follows
      found kept := by
  induction found using List.reverseRecOn with
  | nil => exact ⟨[], FirstsBy.nil _, rfl, rfl⟩
  | append_singleton found find ih =>
    obtain ⟨kept, hkept⟩ := ih
    rw [List.foldl_append]
    exact hkept.add find

/-- The sources that are gathered are the files that were found first. -/
theorem exists_firstsBy_gather (found : List (ScanRoot × List Path)) :
    ∃ kept, FirstsBy Find.components (readable (finds found)) kept ∧
      gather found = kept.filterMap Find.source? := by
  obtain ⟨kept, hkept⟩ := exists_follows (finds found)
  refine ⟨kept, hkept.firsts, ?_⟩
  simp only [gather, foldl_finds]
  exact hkept.sources

end ProjectOutline.Discovery
