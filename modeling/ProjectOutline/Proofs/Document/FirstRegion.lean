import Mathlib.Order.Bounds.Basic
import ProjectOutline.Proofs.Document.Region

/-!
# Which region is found

The search passes from one closing marker to the next and looks back for an opening marker each
time. Its answer can be told without the search: a region ends with a closing marker that has a
complete opening marker before it (`Closable`), and begins with the nearest one (`Delimits`).

That the search finds the first such closing marker needs more, since it goes on behind each closing
marker that it rejects. It would jump over one that begins inside of another. Occurrences of a text
share no character if no proper part of it is its beginning and its end at once (`Unbordered`); then
nothing closable lies before the position of the search (`closable_of_locateFrom`).
-/

namespace ProjectOutline

namespace Text

/-- No proper beginning of the pattern but the empty one is also its end. -/
def Unbordered (pattern : List Char) : Prop :=
  ∀ n < pattern.length, 0 < n → ¬ pattern.take n <:+ pattern

instance (pattern : List Char) : Decidable (Unbordered pattern) :=
  inferInstanceAs (Decidable (∀ n < pattern.length, 0 < n → ¬ pattern.take n <:+ pattern))

/-- Two occurrences of a pattern share no character. -/
theorem Unbordered.stop_le {pattern text : List Char} {i j : Nat} (h : Unbordered pattern)
    (hi : StandsAt pattern text i) (hj : StandsAt pattern text j) (hlt : i < j) :
    i + pattern.length ≤ j := by
  by_contra hshared
  -- What the two share ends the first occurrence and begins the second.
  have hbegins : pattern.drop (j - i) <+: pattern := by
    have hrest : pattern.drop (j - i) <+: text.drop j := by
      have hdrop := List.IsPrefix.drop hi (j - i)
      rwa [List.drop_drop, Nat.add_sub_cancel' (Nat.le_of_lt hlt)] at hdrop
    exact List.prefix_of_prefix_length_le hrest hj (by simp)
  have hborder : pattern.drop (j - i) = pattern.take (pattern.length - (j - i)) := by
    rw [← List.length_drop]
    exact List.prefix_iff_eq_take.mp hbegins
  apply h (pattern.length - (j - i)) (by omega) (by omega)
  rw [← hborder]
  exact List.drop_suffix _ _

end Text

namespace Markers

open Text (StandsAt)

variable {m : Markers} {text : List Char}

/-- A closing marker stands at `c`, and some opening marker is complete before it. -/
def Closable (m : Markers) (text : List Char) (c : Nat) : Prop :=
  StandsAt m.closing.toList text c ∧
    ∃ i, StandsAt m.opening.toList text i ∧ i + m.opening.toList.length ≤ c

/-- The text from `start` to `stop` begins with an opening marker and ends with a closing one, the
two do not overlap, and no opening marker is nearer to the closing one. -/
structure Delimits (m : Markers) (text : List Char) (start stop : Nat) : Prop where
  opens : StandsAt m.opening.toList text start
  closes : StandsAt m.closing.toList text (stop - m.closing.toList.length)
  apart : start + m.opening.toList.length ≤ stop - m.closing.toList.length
  nearest : ∀ i, start < i → StandsAt m.opening.toList text i →
    stop - m.closing.toList.length < i + m.opening.toList.length

theorem closable_iff {c : Nat} (ho : m.opening.toList ≠ []) :
    m.Closable text c ↔
      StandsAt m.closing.toList text c ∧ m.opening.toList <:+: text.take c := by
  rw [Closable, Text.infix_iff_standsAt]
  simp only [Text.standsAt_take_iff ho]

theorem delimits_of_locate {start stop : Nat} (ho : m.opening.toList ≠ [])
    (hc : m.closing.toList ≠ []) (h : m.locate text = some (start, stop)) :
    m.Delimits text start stop := by
  obtain ⟨c, hcloses, rfl, hlast⟩ := locateFrom_eq_some hc 0 h
  obtain ⟨hopens, hgreatest⟩ := (Text.lastAt_eq_some_iff ho).mp hlast
  obtain ⟨hopens, hapart⟩ := (Text.standsAt_take_iff ho).mp hopens
  rw [← Nat.add_sub_cancel (n := c) (m := m.closing.toList.length)] at hcloses hapart
  refine ⟨hopens, hcloses, hapart, fun i hi hstands => ?_⟩
  by_contra hnear
  rw [Nat.add_sub_cancel, Nat.not_lt] at hnear
  exact hgreatest i hi ((Text.standsAt_take_iff ho).mpr ⟨hstands, hnear⟩)

/-- Behind a rejected closing marker nothing closable has been passed over. -/
theorem not_closable_of_retry {position c : Nat} (ho : m.opening.toList ≠ [])
    (hunbordered : Text.Unbordered m.closing.toList) (hcloses : m.ClosesAt text position c)
    (hno : ¬ m.opening.toList <:+: text.take c)
    (hbefore : ∀ j < position, ¬ m.Closable text j) :
    ∀ j < c + m.closing.toList.length, ¬ m.Closable text j := by
  intro j hj hclosable
  rcases Nat.lt_trichotomy j c with hlt | rfl | hgt
  · by_cases hposition : j < position
    · exact hbefore j hposition hclosable
    · exact hcloses.first j (by omega) hlt hclosable.1
  · exact hno ((closable_iff ho).mp hclosable).2
  · have hstop := hunbordered.stop_le hcloses.stands hclosable.1 hgt
    omega

/-- The search stops at the first closable marker, or there is none. The induction carries along
that nothing closable lies before the position of the search. -/
theorem closable_of_locateFrom (text : List Char) (ho : m.opening.toList ≠ [])
    (hc : m.closing.toList ≠ []) (hunbordered : Text.Unbordered m.closing.toList) (position : Nat)
    (hbefore : ∀ j < position, ¬ m.Closable text j) :
    (m.locateFrom text position = none ∧ ∀ j, ¬ m.Closable text j) ∨
      ∃ start c, m.locateFrom text position = some (start, c + m.closing.toList.length) ∧
        IsLeast {j | m.Closable text j} c := by
  induction position using scan_induction text hc with
  | absent position hopen =>
    refine Or.inl ⟨locateFrom_of_openFrom hopen, fun j hclosable => ?_⟩
    by_cases hposition : j < position
    · exact hbefore j hposition hclosable
    · exact hopen j (by omega) hclosable.1
  | found position c start hcloses hlast =>
    refine Or.inr ⟨start, c, locateFrom_of_found hcloses hlast, ?_, fun j hclosable => ?_⟩
    · refine (closable_iff ho).mpr ⟨hcloses.stands, ?_⟩
      exact ((Text.lastAt_eq_some_iff ho).mp hlast).1.isInfix
    · by_contra hlt
      by_cases hposition : j < position
      · exact hbefore j hposition hclosable
      · exact hcloses.first j (by omega) (by omega) hclosable.1
  | retry position c hcloses hno ih =>
    rw [locateFrom_of_retry hc hcloses hno]
    exact ih (not_closable_of_retry ho hunbordered hcloses hno hbefore)

/-- **The region is the one that the documentation describes.** What is found is delimited by a
closing marker and the nearest opening marker before it. If closing markers cannot overlap, then
nothing is found only if no closing marker has an opening marker before it, and otherwise the first
such closing marker ends the region. -/
theorem locate_finds_first_region (m : Markers) (text : List Char) (ho : m.opening ≠ "")
    (hc : m.closing ≠ "") :
    (∀ start stop, m.locate text = some (start, stop) → m.Delimits text start stop) ∧
      (Text.Unbordered m.closing.toList →
        (m.locate text = none ↔ ∀ c, ¬ m.Closable text c) ∧
          ∀ start stop, m.locate text = some (start, stop) →
            IsLeast {c | m.Closable text c} (stop - m.closing.toList.length)) := by
  have ho' : m.opening.toList ≠ [] := fun hnil => ho (String.toList_eq_nil_iff.mp hnil)
  have hc' : m.closing.toList ≠ [] := fun hnil => hc (String.toList_eq_nil_iff.mp hnil)
  refine ⟨fun start stop h => delimits_of_locate ho' hc' h, fun hunbordered => ?_⟩
  rw [locate]
  rcases closable_of_locateFrom text ho' hc' hunbordered 0 (by simp) with
    ⟨hnone, hfree⟩ | ⟨start, c, hfound, hleast⟩
  · rw [hnone]
    exact ⟨⟨fun _ => hfree, fun _ => rfl⟩, by simp⟩
  · rw [hfound]
    constructor
    · exact ⟨by simp, fun hfree => absurd hleast.1 (hfree c)⟩
    · rintro start' stop' ⟨⟩
      rwa [Nat.add_sub_cancel]

/-- A closing marker that begins inside of a rejected one is passed over. -/
example : (⟨"b", "aba"⟩ : Markers).locate "ababa".toList = none ∧
    Closable ⟨"b", "aba"⟩ "ababa".toList 2 :=
  ⟨by cbv, by decide, 1, by decide⟩

/-- A stray closing marker, a stray opening marker and a second closing marker around the region. -/
theorem locate_finds_first_region_strays :
    Text.Unbordered "</a>".toList ∧
      (⟨"<a>", "</a>"⟩ : Markers).locate "</a> <a> x <a>y</a> z</a>".toList = some (11, 19) ∧
      Delimits ⟨"<a>", "</a>"⟩ "</a> <a> x <a>y</a> z</a>".toList 11 19 ∧
      IsLeast {c | Closable ⟨"<a>", "</a>"⟩ "</a> <a> x <a>y</a> z</a>".toList c} 15 := by
  have hunbordered : Text.Unbordered "</a>".toList := by decide
  have hfound : (⟨"<a>", "</a>"⟩ : Markers).locate "</a> <a> x <a>y</a> z</a>".toList =
      some (11, 19) := by cbv
  obtain ⟨hdelimits, hfirst⟩ := locate_finds_first_region ⟨"<a>", "</a>"⟩
    "</a> <a> x <a>y</a> z</a>".toList (by decide) (by decide)
  exact ⟨hunbordered, hfound, hdelimits 11 19 hfound, (hfirst hunbordered).2 11 19 hfound⟩

end Markers

end ProjectOutline
