import Mathlib.Data.List.Induction
import Mathlib.Data.List.Nodup
import ProjectOutline.Report

/-!
# Leaves of a tree

A tree of directories and files can be told by its files alone: for each the path that leads to it
and what it declares. The definitions here look at a list of such leaves the way a tree is looked
at: what is behind a name, what lies under a path, which names come first, and which paths get in
the way of a leaf.
-/

namespace ProjectOutline

/-- A file of a tree: its path, seen from the directory, and what it declares. -/
abbrev Leaf := List String × List Declaration

namespace Leaf

/-- The leaf seen from the entry of that name, if it lies there. -/
def below? (key : String) : Leaf → Option Leaf
  | ([], _) => none
  | (k :: rest, declarations) => if k = key then some (rest, declarations) else none

/-- The leaves behind a name. -/
def behind (key : String) (leaves : List Leaf) : List Leaf :=
  leaves.filterMap (below? key)

/-- The first segments of the leaves. -/
def heads (leaves : List Leaf) : List String :=
  leaves.filterMap fun leaf => leaf.1.head?

theorem mem_behind_iff {key : String} {leaves : List Leaf} {rest : List String}
    {declarations : List Declaration} :
    (rest, declarations) ∈ behind key leaves ↔ (key :: rest, declarations) ∈ leaves := by
  rw [behind, List.mem_filterMap]
  constructor
  · rintro ⟨⟨segments, _⟩, hmem, hbelow⟩
    cases segments with
    | nil => cases hbelow
    | cons k tail =>
      rw [below?] at hbelow
      split at hbelow
      · next hk =>
        simp only [Option.some.injEq, Prod.mk.injEq] at hbelow
        obtain ⟨rfl, rfl⟩ := hbelow
        rw [← hk]
        exact hmem
      · cases hbelow
  · intro hmem
    exact ⟨_, hmem, by simp [below?]⟩

theorem mem_heads_iff {key : String} {leaves : List Leaf} :
    key ∈ heads leaves ↔ ∃ rest declarations, (key :: rest, declarations) ∈ leaves := by
  rw [heads, List.mem_filterMap]
  constructor
  · rintro ⟨⟨segments, declarations⟩, hmem, hhead⟩
    cases segments with
    | nil => cases hhead
    | cons k rest =>
      simp only [List.head?_cons, Option.some.injEq] at hhead
      exact ⟨rest, declarations, hhead ▸ hmem⟩
  · rintro ⟨rest, declarations, hmem⟩
    exact ⟨_, hmem, rfl⟩

theorem behind_eq_nil_iff {key : String} {leaves : List Leaf} :
    behind key leaves = [] ↔ key ∉ heads leaves := by
  rw [List.eq_nil_iff_forall_not_mem, mem_heads_iff]
  constructor
  · rintro h ⟨rest, declarations, hmem⟩
    exact h _ (mem_behind_iff.mpr hmem)
  · rintro h ⟨rest, declarations⟩ hmem
    exact h ⟨rest, declarations, mem_behind_iff.mp hmem⟩

theorem behind_append_self (key : String) (rest : List String) (declarations : List Declaration)
    (leaves : List Leaf) :
    behind key (leaves ++ [(key :: rest, declarations)]) =
      behind key leaves ++ [(rest, declarations)] := by
  simp [behind, below?]

theorem behind_append_other {key other : String} (h : other ≠ key) (rest : List String)
    (declarations : List Declaration) (leaves : List Leaf) :
    behind other (leaves ++ [(key :: rest, declarations)]) = behind other leaves := by
  simp [behind, below?, h.symm]

theorem heads_append (key : String) (rest : List String) (declarations : List Declaration)
    (leaves : List Leaf) :
    heads (leaves ++ [(key :: rest, declarations)]) = heads leaves ++ [key] := by
  simp [heads]

/-- The leaves at or below a path, seen from there. -/
def under (path : List String) (leaves : List Leaf) : List Leaf :=
  leaves.filterMap fun leaf =>
    if path <+: leaf.1 then some (leaf.1.drop path.length, leaf.2) else none

@[simp]
theorem under_nil (path : List String) : under path [] = [] := rfl

theorem under_root (leaves : List Leaf) : under [] leaves = leaves := by
  simp [under]

theorem under_cons (key : String) (rest : List String) (leaves : List Leaf) :
    under (key :: rest) leaves = under rest (behind key leaves) := by
  rw [under, under, behind, List.filterMap_filterMap]
  congr 1
  funext leaf
  obtain ⟨segments, declarations⟩ := leaf
  cases segments with
  | nil => simp [below?]
  | cons k tail =>
    by_cases hk : k = key
    · simp [below?, hk]
    · simp [below?, hk, Ne.symm hk]

theorem mem_under_iff {path rest : List String} {declarations : List Declaration}
    {leaves : List Leaf} :
    (rest, declarations) ∈ under path leaves ↔ (path ++ rest, declarations) ∈ leaves := by
  induction path generalizing leaves with
  | nil => rw [under_root, List.nil_append]
  | cons key path ih => rw [under_cons, ih, mem_behind_iff, List.cons_append]

theorem heads_under (path : List String) (leaves : List Leaf) :
    heads (under path leaves) =
      leaves.filterMap fun leaf => if path <+: leaf.1 then leaf.1[path.length]? else none := by
  rw [heads, under, List.filterMap_filterMap]
  congr 1
  funext leaf
  split <;> simp

/-- A path that begins a leaf, or that a leaf begins. -/
def Clashes (segments : List String) (leaves : List Leaf) : Prop :=
  ∃ leaf ∈ leaves, leaf.1 <+: segments ∨ segments <+: leaf.1

theorem clashes_cons_iff {key : String} {rest : List String} {leaves : List Leaf}
    (hproper : ∀ leaf ∈ leaves, leaf.1 ≠ []) :
    Clashes (key :: rest) leaves ↔ Clashes rest (behind key leaves) := by
  constructor
  · rintro ⟨⟨segments, declarations⟩, hmem, hbegin⟩
    cases segments with
    | nil => exact absurd rfl (hproper _ hmem)
    | cons k tail =>
      simp only [List.cons_prefix_cons] at hbegin
      have hk : k = key := hbegin.elim (·.1) fun h => h.1.symm
      subst hk
      exact ⟨(tail, declarations), mem_behind_iff.mpr hmem, hbegin.imp (·.2) (·.2)⟩
  · rintro ⟨⟨tail, declarations⟩, hmem, hbegin⟩
    refine ⟨(key :: tail, declarations), mem_behind_iff.mp hmem, ?_⟩
    simpa only [List.cons_prefix_cons, true_and] using hbegin

theorem clashes_nil_iff {leaves : List Leaf} : Clashes [] leaves ↔ leaves ≠ [] := by
  constructor
  · rintro ⟨leaf, hmem, -⟩ rfl
    cases hmem
  · intro hne
    obtain ⟨leaf, hmem⟩ := List.exists_mem_of_ne_nil leaves hne
    exact ⟨leaf, hmem, Or.inr List.nil_prefix⟩

end Leaf

/-! ## First occurrences -/

theorem eraseDups_concat (keys : List String) (key : String) :
    (keys ++ [key]).eraseDups =
      if key ∈ keys then keys.eraseDups else keys.eraseDups ++ [key] := by
  rw [List.eraseDups_append]
  by_cases hmem : key ∈ keys
  · simp [List.removeAll, hmem]
  · simp [List.removeAll, hmem, List.eraseDups_cons]

theorem nodup_eraseDups (keys : List String) : keys.eraseDups.Nodup := by
  induction keys using List.reverseRecOn with
  | nil => simp
  | append_singleton keys key ih =>
    rw [eraseDups_concat]
    split
    · exact ih
    · next hnew =>
      rw [List.nodup_append_comm, List.singleton_append, List.nodup_cons, List.mem_eraseDups]
      exact ⟨hnew, ih⟩

end ProjectOutline
