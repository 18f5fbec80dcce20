import Mathlib.Data.List.Infix
import ProjectOutline.Text.Search

/-!
# Occurrences of a pattern

`StandsAt pattern text i` is the reading of `firstAt` and `lastAt` that needs no search: the pattern
is the beginning of what is left of the text behind `i` characters. The two searches are shown to
return exactly the least and the greatest such position (`firstAt_eq_some_iff`,
`lastAt_eq_some_iff`), and to fail exactly when the pattern is no part of the text.

The other lemmas move an occurrence between a text and its pieces. An occurrence that avoids a
character cannot lie across it (`standsAt_append_cons`); this is the only fact about line ends that
the theory of regions needs. A piece without the first or the last character of the pattern holds no
beginning or end of an occurrence.
-/

namespace ProjectOutline.Text

/-- A pattern stands at a position of a text. -/
def StandsAt (pattern text : List Char) (i : Nat) : Prop :=
  pattern <+: text.drop i

instance (pattern text : List Char) (i : Nat) : Decidable (StandsAt pattern text i) :=
  inferInstanceAs (Decidable (pattern <+: text.drop i))

theorem StandsAt.stop_le {pattern text : List Char} {i : Nat} (h : StandsAt pattern text i)
    (hp : pattern ≠ []) : i + pattern.length ≤ text.length := by
  have hlen := List.IsPrefix.length_le h
  have hpos := List.length_pos_iff.mpr hp
  rw [List.length_drop] at hlen
  omega

theorem infix_iff_standsAt {pattern text : List Char} :
    pattern <:+: text ↔ ∃ i, StandsAt pattern text i := by
  constructor
  · rintro ⟨before, after, rfl⟩
    refine ⟨before.length, ?_⟩
    rw [StandsAt, List.append_assoc, List.drop_append_length]
    exact List.prefix_append pattern after
  · rintro ⟨i, h⟩
    exact h.isInfix.trans (List.drop_suffix i text).isInfix

theorem StandsAt.isInfix {pattern text : List Char} {i : Nat} (h : StandsAt pattern text i) :
    pattern <:+: text :=
  infix_iff_standsAt.mpr ⟨i, h⟩

theorem standsAt_drop_iff {pattern text : List Char} {position i : Nat} :
    StandsAt pattern (text.drop position) i ↔ StandsAt pattern text (position + i) := by
  rw [StandsAt, StandsAt, List.drop_drop]

/-- A prefix of a text has the occurrences of the text that end in it. -/
theorem standsAt_take_iff {pattern text : List Char} {i n : Nat} (hp : pattern ≠ []) :
    StandsAt pattern (text.take n) i ↔ StandsAt pattern text i ∧ i + pattern.length ≤ n := by
  have hpos := List.length_pos_iff.mpr hp
  rw [StandsAt, StandsAt, List.drop_take, List.prefix_take_iff]
  constructor
  · rintro ⟨h, hle⟩
    exact ⟨h, by omega⟩
  · rintro ⟨h, hle⟩
    exact ⟨h, by omega⟩

/-- The occurrences in the front part of a text. -/
theorem standsAt_left_iff {pattern front back : List Char} {i : Nat} (hp : pattern ≠ []) :
    StandsAt pattern front i ↔
      StandsAt pattern (front ++ back) i ∧ i + pattern.length ≤ front.length := by
  rw [← standsAt_take_iff hp, List.take_left]

/-- The occurrences in the back part of a text. -/
theorem standsAt_right_iff (front : List Char) {pattern back : List Char} {i : Nat} :
    StandsAt pattern (front ++ back) (front.length + i) ↔ StandsAt pattern back i := by
  rw [← standsAt_drop_iff, List.drop_append_length]

theorem standsAt_behind_cons_iff {pattern front back : List Char} {c : Char} {i : Nat} :
    StandsAt pattern (front ++ c :: back) (front.length + 1 + i) ↔ StandsAt pattern back i := by
  have hmove : front.length + 1 = (front ++ [c]).length := by simp
  have hcut : front ++ c :: back = (front ++ [c]) ++ back := by simp
  rw [hmove, hcut, standsAt_right_iff]

theorem standsAt_length_append (front pattern back : List Char) :
    StandsAt pattern (front ++ (pattern ++ back)) front.length := by
  rw [StandsAt, List.drop_append_length]
  exact List.prefix_append pattern back

theorem StandsAt.getElem? {pattern text : List Char} {i k : Nat} (h : StandsAt pattern text i)
    (hk : k < pattern.length) : text[i + k]? = pattern[k]? := by
  obtain ⟨rest, hrest⟩ := h
  rw [← List.getElem?_append_left hk, hrest, List.getElem?_drop]

theorem StandsAt.getElem?_first {pattern text : List Char} {i : Nat}
    (h : StandsAt pattern text i) (hp : pattern ≠ []) : text[i]? = some (pattern.head hp) := by
  have hat := h.getElem? (List.length_pos_iff.mpr hp)
  rwa [Nat.add_zero, ← List.head?_eq_getElem?, List.head?_eq_some_head hp] at hat

theorem StandsAt.getElem?_last {pattern text : List Char} {i : Nat}
    (h : StandsAt pattern text i) (hp : pattern ≠ []) :
    text[i + (pattern.length - 1)]? = some (pattern.getLast hp) := by
  have hpos := List.length_pos_iff.mpr hp
  rw [h.getElem? (by omega), ← List.getLast?_eq_getElem?, List.getLast?_eq_some_getLast hp]

/-- An occurrence avoids every character that the pattern does not have. -/
theorem standsAt_append_cons {pattern front back : List Char} {c : Char} {i : Nat}
    (h : StandsAt pattern (front ++ c :: back) i) (hc : c ∉ pattern) :
    i + pattern.length ≤ front.length ∨ front.length + 1 ≤ i := by
  by_contra hcross
  have hlt : front.length - i < pattern.length := by omega
  have hmove : i + (front.length - i) = front.length := by omega
  have hat := h.getElem? hlt
  rw [hmove] at hat
  have hmem : c ∈ pattern := by
    apply List.mem_of_getElem?
    rw [← hat]
    simp
  exact hc hmem

/-- A character that the pattern does not have divides the text for the pattern. -/
theorem infix_append_cons_iff {pattern front back : List Char} {c : Char} (hp : pattern ≠ [])
    (hc : c ∉ pattern) :
    pattern <:+: front ++ c :: back ↔ pattern <:+: front ∨ pattern <:+: back := by
  constructor
  · intro h
    obtain ⟨i, hi⟩ := infix_iff_standsAt.mp h
    rcases standsAt_append_cons hi hc with hleft | hright
    · exact Or.inl ((standsAt_left_iff hp).mpr ⟨hi, hleft⟩).isInfix
    · rw [← Nat.add_sub_cancel' hright, standsAt_behind_cons_iff] at hi
      exact Or.inr hi.isInfix
  · rintro (h | h)
    · exact h.trans (List.prefix_append front _).isInfix
    · exact (h.trans (List.suffix_cons c back).isInfix).trans (List.suffix_append front _).isInfix

/-- A front part without the first character of the pattern adds no occurrence. -/
theorem infix_append_right_iff {c : Char} {tail front back : List Char} (hc : c ∉ front) :
    c :: tail <:+: front ++ back ↔ c :: tail <:+: back := by
  induction front with
  | nil => rw [List.nil_append]
  | cons x front ih =>
    rw [List.mem_cons, not_or] at hc
    rw [List.cons_append, List.infix_cons_iff, List.cons_prefix_cons, ih hc.2]
    simp [hc.1]

/-- A back part without the last character of the pattern adds no occurrence. -/
theorem infix_append_left_iff {c : Char} {init front back : List Char} (hc : c ∉ back) :
    init ++ [c] <:+: front ++ back ↔ init ++ [c] <:+: front := by
  rw [← List.reverse_infix, List.reverse_append, List.reverse_append, List.reverse_singleton,
    List.singleton_append, infix_append_right_iff (by simpa using hc), ← List.reverse_infix,
    List.reverse_reverse, List.reverse_cons, List.reverse_reverse]

/-! ## The two searches -/

theorem firstAt_eq_none_iff {pattern text : List Char} :
    firstAt pattern text = none ↔ ¬ pattern <:+: text := by
  induction text with
  | nil => cases pattern <;> simp [firstAt]
  | cons c rest ih =>
    rw [firstAt, List.infix_cons_iff, ← List.isPrefixOf_iff_prefix]
    by_cases hp : pattern.isPrefixOf (c :: rest) = true
    · simp [hp]
    · simp [hp, ih]

/-- The first occurrence: the pattern stands there and nowhere before. -/
theorem firstAt_eq_some_iff {pattern text : List Char} {i : Nat} :
    firstAt pattern text = some i ↔
      StandsAt pattern text i ∧ ∀ j < i, ¬ StandsAt pattern text j := by
  induction text generalizing i with
  | nil =>
    cases pattern with
    | nil =>
      simp only [firstAt, List.isEmpty_nil, if_true, Option.some.injEq]
      constructor
      · rintro rfl
        exact ⟨List.prefix_refl [], by simp⟩
      · rintro ⟨-, hleast⟩
        by_contra hne
        exact hleast 0 (by omega) List.nil_prefix
    | cons c rest => simp [firstAt, StandsAt]
  | cons c rest ih =>
    rw [firstAt]
    by_cases hp : pattern.isPrefixOf (c :: rest) = true
    · have hzero : StandsAt pattern (c :: rest) 0 := List.isPrefixOf_iff_prefix.mp hp
      simp only [hp, if_true, Option.some.injEq]
      constructor
      · rintro rfl
        exact ⟨hzero, by simp⟩
      · rintro ⟨-, hleast⟩
        by_contra hne
        exact hleast 0 (by omega) hzero
    · have hzero : ¬ StandsAt pattern (c :: rest) 0 :=
        fun h => hp (List.isPrefixOf_iff_prefix.mpr h)
      simp only [hp, Bool.false_eq_true, if_false, Option.map_eq_some_iff]
      constructor
      · rintro ⟨k, hk, rfl⟩
        obtain ⟨hat, hleast⟩ := ih.mp hk
        refine ⟨hat, fun j hj => ?_⟩
        cases j with
        | zero => exact hzero
        | succ j => exact hleast j (by omega)
      · rintro ⟨hat, hleast⟩
        cases i with
        | zero => exact absurd hat hzero
        | succ k => exact ⟨k, ih.mpr ⟨hat, fun j hj => hleast (j + 1) (by omega)⟩, rfl⟩

theorem lastAt_eq_none_iff {pattern text : List Char} :
    lastAt pattern text = none ↔ ¬ pattern <:+: text := by
  induction text with
  | nil => cases pattern <;> simp [lastAt]
  | cons c rest ih =>
    rw [lastAt, List.infix_cons_iff, ← List.isPrefixOf_iff_prefix]
    cases hrest : lastAt pattern rest with
    | some n =>
      have hin : pattern <:+: rest := by
        by_contra hnot
        rw [ih.mpr hnot] at hrest
        cases hrest
      simp [hin]
    | none =>
      have hout := ih.mp hrest
      by_cases hp : pattern.isPrefixOf (c :: rest) = true
      · simp [hp]
      · simp [hp, hout]

/-- The last occurrence begins in the text or at its end, also that of the empty pattern. -/
theorem le_length_of_lastAt {pattern text : List Char} {i : Nat}
    (h : lastAt pattern text = some i) : i ≤ text.length := by
  induction text generalizing i with
  | nil =>
    rw [lastAt] at h
    split at h
    · cases h
      exact Nat.le_refl 0
    · cases h
  | cons c rest ih =>
    rw [lastAt] at h
    cases hrest : lastAt pattern rest with
    | some n =>
      rw [hrest] at h
      cases h
      exact Nat.succ_le_succ (ih hrest)
    | none =>
      rw [hrest] at h
      dsimp only at h
      split at h
      · cases h
        exact Nat.zero_le _
      · cases h

/-- The last occurrence: the pattern stands there and nowhere behind. -/
theorem lastAt_eq_some_iff {pattern text : List Char} {i : Nat} (hne : pattern ≠ []) :
    lastAt pattern text = some i ↔
      StandsAt pattern text i ∧ ∀ j, i < j → ¬ StandsAt pattern text j := by
  induction text generalizing i with
  | nil => cases pattern <;> simp_all [lastAt, StandsAt]
  | cons c rest ih =>
    rw [lastAt]
    cases hrest : lastAt pattern rest with
    | some n =>
      obtain ⟨hat, hgreatest⟩ := ih.mp hrest
      simp only [Option.some.injEq]
      constructor
      · rintro rfl
        refine ⟨hat, fun j hj => ?_⟩
        cases j with
        | zero => omega
        | succ j => exact hgreatest j (by omega)
      · rintro ⟨hati, hbehind⟩
        cases i with
        | zero => exact absurd hat (hbehind (n + 1) (by omega))
        | succ k =>
          have hk : some k = some n := by
            rw [← hrest]
            exact (ih.mpr ⟨hati, fun j hj => hbehind (j + 1) (by omega)⟩).symm
          rw [Option.some.inj hk]
    | none =>
      have hout : ∀ j, ¬ StandsAt pattern (c :: rest) (j + 1) := fun j hj =>
        lastAt_eq_none_iff.mp hrest (StandsAt.isInfix (i := j) hj)
      by_cases hp : pattern.isPrefixOf (c :: rest) = true
      · have hzero : StandsAt pattern (c :: rest) 0 := List.isPrefixOf_iff_prefix.mp hp
        simp only [hp, if_true, Option.some.injEq]
        constructor
        · rintro rfl
          refine ⟨hzero, fun j hj => ?_⟩
          cases j with
          | zero => omega
          | succ j => exact hout j
        · rintro ⟨hati, -⟩
          cases i with
          | zero => rfl
          | succ k => exact absurd hati (hout k)
      · simp only [hp, Bool.false_eq_true, if_false, reduceCtorEq, false_iff]
        rintro ⟨hati, -⟩
        cases i with
        | zero => exact hp (List.isPrefixOf_iff_prefix.mpr hati)
        | succ k => exact hout k hati

end ProjectOutline.Text
