import ProjectOutline.Document
import ProjectOutline.Proofs.Text.Occurrence

/-!
# The search for the region

The search goes from closing marker to closing marker. `scan_induction` is its induction principle:
from a position on there is no closing marker, or the first one has an opening marker before it, or
it has none and the search goes on behind it. Every fact about `locateFrom` is derived from the
three equations for these cases; `probe` is not opened again.

Two facts carry the theory of patching. A prefix of a text that ends before the region does has no
region (`locateFrom_take_eq_none`), and a text without a region followed by a line end sends the
search behind that line end (`locateFrom_append_newline`).
-/

namespace ProjectOutline.Markers

open Text (StandsAt)

variable {m : Markers} {text : List Char}

/-- The first closing marker from `position` on stands at `c`. -/
structure ClosesAt (m : Markers) (text : List Char) (position c : Nat) : Prop where
  position_le : position ≤ c
  stands : StandsAt m.closing.toList text c
  first : ∀ j, position ≤ j → j < c → ¬ StandsAt m.closing.toList text j

/-- No closing marker stands from `position` on. -/
def OpenFrom (m : Markers) (text : List Char) (position : Nat) : Prop :=
  ∀ j, position ≤ j → ¬ StandsAt m.closing.toList text j

theorem firstAt_drop_of_closesAt {position c : Nat} (h : m.ClosesAt text position c) :
    Text.firstAt m.closing.toList (text.drop position) = some (c - position) := by
  have hle := h.position_le
  rw [Text.firstAt_eq_some_iff, Text.standsAt_drop_iff]
  refine ⟨?_, fun j hj => ?_⟩
  · rw [Nat.add_sub_cancel' hle]
    exact h.stands
  · rw [Text.standsAt_drop_iff]
    exact h.first (position + j) (by omega) (by omega)

/-- From a position on there is a first closing marker, or there is none. -/
theorem closesAt_or_openFrom (m : Markers) (text : List Char) (position : Nat) :
    (∃ c, m.ClosesAt text position c) ∨ m.OpenFrom text position := by
  cases hfirst : Text.firstAt m.closing.toList (text.drop position) with
  | none =>
    have hnot := Text.firstAt_eq_none_iff.mp hfirst
    refine Or.inr fun j hj hstands => hnot ?_
    apply StandsAt.isInfix (i := j - position)
    rw [Text.standsAt_drop_iff, Nat.add_sub_cancel' hj]
    exact hstands
  | some offset =>
    obtain ⟨hat, hleast⟩ := Text.firstAt_eq_some_iff.mp hfirst
    rw [Text.standsAt_drop_iff] at hat
    refine Or.inl ⟨position + offset, by omega, hat, fun j hj hlt hstands => ?_⟩
    apply hleast (j - position) (by omega)
    rw [Text.standsAt_drop_iff, Nat.add_sub_cancel' hj]
    exact hstands

/-! ## One step of the search -/

theorem locateFrom_of_openFrom {position : Nat} (h : m.OpenFrom text position) :
    m.locateFrom text position = none := by
  have hnone : Text.firstAt m.closing.toList (text.drop position) = none := by
    rw [Text.firstAt_eq_none_iff, Text.infix_iff_standsAt]
    rintro ⟨i, hi⟩
    exact h (position + i) (by omega) (Text.standsAt_drop_iff.mp hi)
  rw [locateFrom]
  simp only [probe, hnone]

theorem locateFrom_of_found {position c start : Nat} (h : m.ClosesAt text position c)
    (hstart : Text.lastAt m.opening.toList (text.take c) = some start) :
    m.locateFrom text position = some (start, c + m.closing.toList.length) := by
  have hc : position + (c - position) = c := Nat.add_sub_cancel' h.position_le
  rw [locateFrom]
  simp only [probe, firstAt_drop_of_closesAt h, hc, hstart]

theorem locateFrom_of_retry {position c : Nat} (hne : m.closing.toList ≠ [])
    (h : m.ClosesAt text position c) (hno : ¬ m.opening.toList <:+: text.take c) :
    m.locateFrom text position = m.locateFrom text (c + m.closing.toList.length) := by
  have hc : position + (c - position) = c := Nat.add_sub_cancel' h.position_le
  have hlast := Text.lastAt_eq_none_iff.mpr hno
  have hpos := List.length_pos_iff.mpr hne
  have hstop := h.stands.stop_le hne
  have hle := h.position_le
  -- The guard of the loop always holds: a closing marker is not empty and lies in the text.
  have hguard : position < c + m.closing.toList.length ∧
      c + m.closing.toList.length ≤ text.length := by omega
  rw [locateFrom]
  simp only [probe, firstAt_drop_of_closesAt h, hc, hlast]
  rw [if_pos hguard]

/-- The induction that follows the search through the closing markers of a text. -/
theorem scan_induction (text : List Char) {motive : Nat → Prop} (hne : m.closing.toList ≠ [])
    (absent : ∀ position, m.OpenFrom text position → motive position)
    (found : ∀ position c start, m.ClosesAt text position c →
      Text.lastAt m.opening.toList (text.take c) = some start → motive position)
    (retry : ∀ position c, m.ClosesAt text position c → ¬ m.opening.toList <:+: text.take c →
      motive (c + m.closing.toList.length) → motive position)
    (position : Nat) : motive position := by
  rcases closesAt_or_openFrom m text position with ⟨c, hcloses⟩ | hopen
  · have hpos := List.length_pos_iff.mpr hne
    have hstop := hcloses.stands.stop_le hne
    have hle := hcloses.position_le
    cases hlast : Text.lastAt m.opening.toList (text.take c) with
    | some start => exact found position c start hcloses hlast
    | none =>
      exact retry position c hcloses (Text.lastAt_eq_none_iff.mp hlast)
        (scan_induction text hne absent found retry (c + m.closing.toList.length))
  · exact absent position hopen
termination_by text.length - position

/-! ## What the search returns -/

/-- A region ends with the closing marker that the search stopped at, and begins with the last
opening marker before it. -/
theorem locateFrom_eq_some {start stop : Nat} (hne : m.closing.toList ≠ []) (position : Nat)
    (h : m.locateFrom text position = some (start, stop)) :
    ∃ c, StandsAt m.closing.toList text c ∧ stop = c + m.closing.toList.length ∧
      Text.lastAt m.opening.toList (text.take c) = some start := by
  induction position using scan_induction text hne with
  | absent position hopen =>
    rw [locateFrom_of_openFrom hopen] at h
    cases h
  | found position c first hcloses hlast =>
    rw [locateFrom_of_found hcloses hlast, Option.some.injEq, Prod.mk.injEq] at h
    obtain ⟨rfl, rfl⟩ := h
    exact ⟨c, hcloses.stands, rfl, hlast⟩
  | retry position c hcloses hno ih =>
    rw [locateFrom_of_retry hne hcloses hno] at h
    exact ih h

/-- The closing marker of a region is not before the position where the search began. -/
theorem position_le_of_locateFrom {start stop : Nat} (hne : m.closing.toList ≠ [])
    (position : Nat) (h : m.locateFrom text position = some (start, stop)) :
    position + m.closing.toList.length ≤ stop := by
  induction position using scan_induction text hne with
  | absent position hopen =>
    rw [locateFrom_of_openFrom hopen] at h
    cases h
  | found position c first hcloses hlast =>
    rw [locateFrom_of_found hcloses hlast, Option.some.injEq, Prod.mk.injEq] at h
    have hle := hcloses.position_le
    omega
  | retry position c hcloses hno ih =>
    rw [locateFrom_of_retry hne hcloses hno] at h
    have hle := hcloses.position_le
    have hrest := ih h
    omega

/-- A region lies in its text. The opening marker may be empty here. -/
theorem locate_span {start stop : Nat} (hc : m.closing.toList ≠ [])
    (h : m.locate text = some (start, stop)) : start ≤ stop ∧ stop ≤ text.length := by
  obtain ⟨c, hstands, rfl, hlast⟩ := locateFrom_eq_some hc 0 h
  have hstart := Text.le_length_of_lastAt hlast
  rw [List.length_take] at hstart
  have hstop := hstands.stop_le hc
  omega

theorem locate_bounds {start stop : Nat} (ho : m.opening.toList ≠ [])
    (hc : m.closing.toList ≠ []) (h : m.locate text = some (start, stop)) :
    start + m.opening.toList.length + m.closing.toList.length ≤ stop ∧ stop ≤ text.length := by
  obtain ⟨c, hstands, rfl, hlast⟩ := locateFrom_eq_some hc 0 h
  have hstart := ((Text.lastAt_eq_some_iff ho).mp hlast).1
  have hbefore := ((Text.standsAt_take_iff ho).mp hstart).2
  have hstop := hstands.stop_le hc
  omega

theorem locate_standsAt {start stop : Nat} (ho : m.opening.toList ≠ [])
    (hc : m.closing.toList ≠ []) (h : m.locate text = some (start, stop)) :
    StandsAt m.opening.toList text start := by
  obtain ⟨c, -, -, hlast⟩ := locateFrom_eq_some hc 0 h
  have hstart := ((Text.lastAt_eq_some_iff ho).mp hlast).1
  exact ((Text.standsAt_take_iff ho).mp hstart).1

/-! ## Searches that agree -/

/-- Positions that see the same first closing marker give the same region. -/
theorem locateFrom_congr {p q : Nat} (hne : m.closing.toList ≠ []) (hpq : p ≤ q)
    (hfree : ∀ j, p ≤ j → j < q → ¬ StandsAt m.closing.toList text j) :
    m.locateFrom text p = m.locateFrom text q := by
  have hextend : ∀ c, m.ClosesAt text q c → m.ClosesAt text p c := by
    intro c hcloses
    refine ⟨Nat.le_trans hpq hcloses.position_le, hcloses.stands, fun j hj hlt => ?_⟩
    by_cases hjq : j < q
    · exact hfree j hj hjq
    · exact hcloses.first j (by omega) hlt
  rcases closesAt_or_openFrom m text q with ⟨c, hcloses⟩ | hopen
  · cases hlast : Text.lastAt m.opening.toList (text.take c) with
    | some start =>
      rw [locateFrom_of_found hcloses hlast, locateFrom_of_found (hextend c hcloses) hlast]
    | none =>
      have hno := Text.lastAt_eq_none_iff.mp hlast
      rw [locateFrom_of_retry hne hcloses hno, locateFrom_of_retry hne (hextend c hcloses) hno]
  · have hopenp : m.OpenFrom text p := by
      intro j hj
      by_cases hjq : j < q
      · exact hfree j hj hjq
      · exact hopen j (by omega)
    rw [locateFrom_of_openFrom hopen, locateFrom_of_openFrom hopenp]

/-- A prefix of a text has no region if the region of the text, should it have one, ends behind
that prefix. -/
theorem locateFrom_take_eq_none {n : Nat} (hne : m.closing.toList ≠ []) (position : Nat)
    (hbehind : ∀ start stop, m.locateFrom text position = some (start, stop) → n < stop) :
    m.locateFrom (text.take n) position = none := by
  -- A closing marker whose end the prefix cuts off leaves the prefix without any.
  have hcut : ∀ p c, m.ClosesAt text p c → n < c + m.closing.toList.length →
      m.locateFrom (text.take n) p = none := by
    intro p c hcloses hlt
    apply locateFrom_of_openFrom
    intro j hj hstands
    obtain ⟨hat, hle⟩ := (Text.standsAt_take_iff hne).mp hstands
    exact hcloses.first j hj (by omega) hat
  induction position using scan_induction text hne with
  | absent position hopen =>
    apply locateFrom_of_openFrom
    intro j hj hstands
    exact hopen j hj ((Text.standsAt_take_iff hne).mp hstands).1
  | found position c start hcloses hlast =>
    exact hcut position c hcloses (hbehind _ _ (locateFrom_of_found hcloses hlast))
  | retry position c hcloses hno ih =>
    rw [locateFrom_of_retry hne hcloses hno] at hbehind
    by_cases hfit : c + m.closing.toList.length ≤ n
    · have hcloses' : m.ClosesAt (text.take n) position c := by
        refine ⟨hcloses.position_le, ?_, fun j hj hlt hstands => ?_⟩
        · exact (Text.standsAt_take_iff hne).mpr ⟨hcloses.stands, hfit⟩
        · exact hcloses.first j hj hlt ((Text.standsAt_take_iff hne).mp hstands).1
      have hsame : (text.take n).take c = text.take c := by
        rw [List.take_take, Nat.min_eq_left (by omega)]
      rw [locateFrom_of_retry hne hcloses' (by rw [hsame]; exact hno)]
      exact ih hbehind
    · exact hcut position c hcloses (by omega)

/-- The search passes over a front part without a region and the line end behind it. -/
theorem locateFrom_append_newline {front : List Char} (back : List Char)
    (hne : m.closing.toList ≠ []) (hline : '\n' ∉ m.closing.toList) (position : Nat)
    (hposition : position ≤ front.length) (hnone : m.locateFrom front position = none) :
    m.locateFrom (front ++ '\n' :: back) position =
      m.locateFrom (front ++ '\n' :: back) (front.length + 1) := by
  induction position using scan_induction front hne with
  | absent position hopen =>
    apply locateFrom_congr hne (by omega)
    intro j hj hlt hstands
    rcases Text.standsAt_append_cons hstands hline with hleft | hright
    · exact hopen j hj ((Text.standsAt_left_iff hne).mpr ⟨hstands, hleft⟩)
    · omega
  | found position c start hcloses hlast =>
    rw [locateFrom_of_found hcloses hlast] at hnone
    cases hnone
  | retry position c hcloses hno ih =>
    rw [locateFrom_of_retry hne hcloses hno] at hnone
    have hstop := hcloses.stands.stop_le hne
    have hcloses' : m.ClosesAt (front ++ '\n' :: back) position c := by
      refine ⟨hcloses.position_le, ?_, fun j hj hlt hstands => ?_⟩
      · exact ((Text.standsAt_left_iff hne).mp hcloses.stands).1
      · exact hcloses.first j hj hlt ((Text.standsAt_left_iff hne).mpr ⟨hstands, by omega⟩)
    have hsame : (front ++ '\n' :: back).take c = front.take c :=
      List.take_append_of_le_length (by omega)
    rw [locateFrom_of_retry hne hcloses' (by rw [hsame]; exact hno)]
    exact ih hstop hnone

theorem locate_eq_none_of_prefix {front : List Char} (hne : m.closing.toList ≠ [])
    (hbegin : front <+: text) (hnone : m.locate text = none) : m.locate front = none := by
  rw [List.prefix_iff_eq_take.mp hbegin]
  apply locateFrom_take_eq_none hne 0
  intro start stop h
  rw [locate, h] at hnone
  cases hnone

theorem locate_append_newline_eq_none {front back : List Char} (hne : m.closing.toList ≠ [])
    (hline : '\n' ∉ m.closing.toList) (hnone : m.locate front = none)
    (hback : ¬ m.closing.toList <:+: back) : m.locate (front ++ '\n' :: back) = none := by
  rw [locate, locateFrom_append_newline back hne hline 0 (Nat.zero_le _) hnone]
  apply locateFrom_of_openFrom
  intro j hj hstands
  rw [← Nat.add_sub_cancel' hj, Text.standsAt_behind_cons_iff] at hstands
  exact hback hstands.isInfix

end ProjectOutline.Markers
