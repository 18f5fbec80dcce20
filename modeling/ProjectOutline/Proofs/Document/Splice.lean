import Mathlib.Order.Bounds.Basic
import ProjectOutline.Proofs.Document.Absorption

/-!
# One patch

What a single patch does to a document, for markers of which only the closing one must not be empty.
`Spliced` describes the text after it without `place`: the region stands where the old one was, or
behind the whole document and an empty line, and nothing else is touched. The line ends before an
appended region are the fewest that leave an empty line (`gap_separates`).

Whether a patch counts as a change is decided on the region alone. It comes to the same as comparing
the documents (`place_unchanged_iff_text_eq`): two texts that agree around the region agree as a
whole exactly if they agree in it (`splice_eq_iff`), and an appended region is never empty.
-/

namespace ProjectOutline.Document

variable {m : Markers} {region current : List Char}

/-- `n` is the smallest number of line ends that make a text end in an empty line; an empty text
needs none. -/
def Separates (current : List Char) (n : Nat) : Prop :=
  (current = [] → n = 0) ∧
    (current ≠ [] → IsLeast {k | ['\n', '\n'] <:+ current ++ List.replicate k '\n'} n)

/-- A text that consists of a document and a region: the region in the place of the one that the
document has, or behind an empty line if it has none. -/
structure Spliced (m : Markers) (region current text : List Char) : Prop where
  replaced : ∀ start stop, m.locate current = some (start, stop) →
    start ≤ stop ∧ stop ≤ current.length ∧
      text = current.take start ++ region ++ current.drop stop
  appended : m.locate current = none →
    ∃ n, Separates current n ∧ text = current ++ List.replicate n '\n' ++ region ++ ['\n']

/-! ## The empty line -/

/-- A text that one line end leaves without an empty line needs two. -/
theorem isLeast_two_of_not_suffix (h : ¬ ['\n'] <:+ current) :
    IsLeast {k | ['\n', '\n'] <:+ current ++ List.replicate k '\n'} 2 := by
  refine ⟨List.suffix_append current ['\n', '\n'], fun k hk => ?_⟩
  by_contra hlt
  apply h
  have hcases : k = 0 ∨ k = 1 := by omega
  rcases hcases with rfl | rfl
  · have hends : ['\n', '\n'] <:+ current := by simpa using hk
    exact List.IsSuffix.trans ⟨['\n'], rfl⟩ hends
  · obtain ⟨front, hfront⟩ := hk
    have hall : front ++ ['\n'] ++ ['\n'] = current ++ ['\n'] := by simpa using hfront
    exact ⟨front, List.append_cancel_right hall⟩

theorem isLeast_one_of_suffix (hone : ['\n'] <:+ current) (htwo : ¬ ['\n', '\n'] <:+ current) :
    IsLeast {k | ['\n', '\n'] <:+ current ++ List.replicate k '\n'} 1 := by
  constructor
  · obtain ⟨front, rfl⟩ := hone
    exact ⟨front, by simp⟩
  · intro k hk
    by_contra hlt
    obtain rfl : k = 0 := by omega
    exact htwo (by simpa using hk)

/-- The line ends before an appended region are as few as an empty line takes. -/
theorem gap_separates (current : List Char) :
    ∃ n, Separates current n ∧ gap current = List.replicate n '\n' := by
  unfold gap
  split
  · next hempty => exact ⟨0, ⟨fun _ => rfl, fun hne => absurd hempty hne⟩, rfl⟩
  · next hne =>
    have hseparates : ∀ n, IsLeast {k | ['\n', '\n'] <:+ current ++ List.replicate k '\n'} n →
        Separates current n := fun n h => ⟨fun hempty => absurd hempty hne, fun _ => h⟩
    split
    · next htwo =>
      have hends := List.isSuffixOf_iff_suffix.mp htwo
      exact ⟨0, hseparates 0 ⟨by simpa using hends, fun k _ => Nat.zero_le k⟩, rfl⟩
    · next htwo =>
      have hnot : ¬ ['\n', '\n'] <:+ current := fun h => htwo (List.isSuffixOf_iff_suffix.mpr h)
      split
      · next hone =>
        have hends := List.isSuffixOf_iff_suffix.mp hone
        exact ⟨1, hseparates 1 (isLeast_one_of_suffix hends hnot), rfl⟩
      · next hone =>
        have hplain : ¬ ['\n'] <:+ current := fun h => hone (List.isSuffixOf_iff_suffix.mpr h)
        exact ⟨2, hseparates 2 (isLeast_two_of_not_suffix hplain), rfl⟩

/-! ## The text and the flag -/

/-- Placing a region splices it into the document. -/
theorem spliced_place (hc : m.closing.toList ≠ []) (region current : List Char) :
    Spliced m region current (place m region current).1 := by
  have htext := place_text hc region current
  constructor
  · intro start stop hlocate
    obtain ⟨hstart, hstop⟩ := Markers.locate_span hc hlocate
    rw [surroundings_of_located hlocate] at htext
    exact ⟨hstart, hstop, htext⟩
  · intro hlocate
    obtain ⟨n, hseparates, hgap⟩ := gap_separates current
    rw [surroundings, hlocate, hgap] at htext
    exact ⟨n, hseparates, htext⟩

/-- Another region between the same two texts gives the same text exactly if it is the same. -/
theorem splice_eq_iff {start stop : Nat} (h : start ≤ stop) :
    current.take start ++ region ++ current.drop stop = current ↔
      (current.take stop).drop start = region := by
  have hparts := take_append_slice_append_drop current h
  constructor
  · intro hsame
    have hboth := hparts.trans hsame.symm
    exact List.append_cancel_left (List.append_cancel_right hboth)
  · intro hslice
    rw [← hslice]
    exact hparts

/-- A document counts as unchanged exactly if its text is the same. -/
theorem place_unchanged_iff_text_eq (hc : m.closing.toList ≠ []) :
    (place m region current).2 = false ↔ (place m region current).1 = current := by
  have hspliced := spliced_place hc region current
  rw [place_unchanged_iff]
  cases hlocate : m.locate current with
  | some bounds =>
    obtain ⟨start, stop⟩ := bounds
    obtain ⟨hle, -, htext⟩ := hspliced.replaced start stop hlocate
    rw [htext, splice_eq_iff hle]
    simp
  | none =>
    obtain ⟨n, -, htext⟩ := hspliced.appended hlocate
    constructor
    · rintro ⟨start, stop, hsome, -⟩
      cases hsome
    · intro hsame
      -- The line end behind the region alone makes the document longer.
      have hlength := congrArg List.length (htext.symm.trans hsame)
      simp only [List.length_append, List.length_singleton] at hlength
      omega

/-- **A patch keeps every character around the region and tells a change exactly.** The region takes
the place of the old one, or stands behind the document and an empty line; the flag is down exactly
if the text is the stored one. A missing document is patched as its scaffold is, and counts as
changed. -/
theorem patch_splices_and_tells_change (m : Markers) (hclosing : m.closing ≠ "")
    (generated bootstrap : String) :
    (∀ current : String,
      Spliced m (m.wrap generated).toList current.toList
          (patch (some current) generated m bootstrap).text.toList ∧
        ((patch (some current) generated m bootstrap).changed = false ↔
          (patch (some current) generated m bootstrap).text = current)) ∧
    Spliced m (m.wrap generated).toList bootstrap.toList
        (patch none generated m bootstrap).text.toList ∧
      (patch none generated m bootstrap).changed = true := by
  have hc : m.closing.toList ≠ [] := fun h => hclosing (String.toList_inj.mp h)
  have hspliced : ∀ current : String, Spliced m (m.wrap generated).toList current.toList
      (patch (some current) generated m bootstrap).text.toList := by
    intro current
    change Spliced m _ _ (String.ofList (place m _ _).1).toList
    rw [String.toList_ofList]
    exact spliced_place hc _ _
  refine ⟨fun current => ⟨hspliced current, ?_⟩, hspliced bootstrap, rfl⟩
  change (place m (m.wrap generated).toList current.toList).2 = false ↔
    String.ofList (place m (m.wrap generated).toList current.toList).1 = current
  rw [place_unchanged_iff_text_eq hc, ← String.toList_inj, String.toList_ofList]

/-- Two stray markers and no region: the document ends in one line end, so one more makes the empty
line before the region, and the document counts as changed. -/
theorem patch_splices_and_tells_change_strays :
    (⟨"<a>", "</a>"⟩ : Markers).closing ≠ "" ∧
      (⟨"<a>", "</a>"⟩ : Markers).locate "</a> and <a>\n".toList = none ∧
      (∃ n, Separates "</a> and <a>\n".toList n ∧
        (patch (some "</a> and <a>\n") "x" ⟨"<a>", "</a>"⟩ "").text.toList =
          "</a> and <a>\n".toList ++ List.replicate n '\n' ++ "<a>\nx\n</a>".toList ++ ['\n']) ∧
      (patch none "x" ⟨"<a>", "</a>"⟩ "").changed = true := by
  have hclosing : (⟨"<a>", "</a>"⟩ : Markers).closing ≠ "" := by decide
  have hnone : (⟨"<a>", "</a>"⟩ : Markers).locate "</a> and <a>\n".toList = none := by cbv
  have hwrap : (⟨"<a>", "</a>"⟩ : Markers).wrap "x" = "<a>\nx\n</a>" := by decide
  obtain ⟨hstored, -, hmissing⟩ :=
    patch_splices_and_tells_change ⟨"<a>", "</a>"⟩ hclosing "x" ""
  have happended := (hstored "</a> and <a>\n").1.appended hnone
  rw [hwrap] at happended
  exact ⟨hclosing, hnone, happended, hmissing⟩

end ProjectOutline.Document
