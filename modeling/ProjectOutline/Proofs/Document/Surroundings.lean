import ProjectOutline.Proofs.Document.Region

/-!
# What a patch keeps

A document falls into the text before its region, the region, and the text behind it; a document
without a region gets one behind an empty line (`Document.surroundings`). Patching puts the new
region between the same two texts (`place_text`).

The text before the region, with an opening marker behind it, holds no region of its own
(`locate_before_opening`). From this alone it follows where the next search ends up
(`locate_wrapped`): inside the region that was written, and at its two ends exactly if the generated
text holds neither marker.
-/

namespace ProjectOutline

open Text (StandsAt)

namespace Markers

/-- Markers that lie on one line each, the closing one no part of the opening one. -/
structure Separable (m : Markers) : Prop where
  opening_ne : m.opening ≠ ""
  closing_ne : m.closing ≠ ""
  opening_line : '\n' ∉ m.opening.toList
  closing_line : '\n' ∉ m.closing.toList
  closing_apart : ¬ m.closing.toList <:+: m.opening.toList

/-- A text that holds neither marker. -/
structure Avoids (m : Markers) (s : String) : Prop where
  opening : ¬ m.opening.toList <:+: s.toList
  closing : ¬ m.closing.toList <:+: s.toList

variable {m : Markers}

theorem Separable.opening_chars (hm : m.Separable) : m.opening.toList ≠ [] :=
  fun h => hm.opening_ne (String.toList_inj.mp h)

theorem Separable.closing_chars (hm : m.Separable) : m.closing.toList ≠ [] :=
  fun h => hm.closing_ne (String.toList_inj.mp h)

/-- What stands between the lines of the markers. -/
def body (generated : String) : List Char :=
  generated.toList ++ if generated = "" ∨ Text.endsIn "\n" generated then [] else ['\n']

theorem toList_wrap (m : Markers) (generated : String) :
    (m.wrap generated).toList =
      m.opening.toList ++ '\n' :: (body generated ++ m.closing.toList) := by
  have hline : "\n".toList = ['\n'] := rfl
  have hempty : "".toList = [] := rfl
  simp only [wrap, body, String.toList_append, hline]
  split <;> simp [hline]

/-- Before and behind the body of a region there is a line end. -/
theorem newline_cons_body (generated : String) :
    ∃ lines, '\n' :: body generated = lines ++ ['\n'] := by
  unfold body
  split
  · rename_i hend
    rcases hend with rfl | hend
    · exact ⟨[], rfl⟩
    · obtain ⟨lines, hlines⟩ := List.isSuffixOf_iff_suffix.mp hend
      refine ⟨'\n' :: lines, ?_⟩
      rw [List.append_nil, ← hlines]
      rfl
  · exact ⟨'\n' :: generated.toList, rfl⟩

theorem infix_body_iff {pattern : List Char} {generated : String} (hp : pattern ≠ [])
    (hline : '\n' ∉ pattern) : pattern <:+: body generated ↔ pattern <:+: generated.toList := by
  unfold body
  split
  · rw [List.append_nil]
  · rw [Text.infix_append_cons_iff hp hline]
    simp [hp]

/-- The first closing marker behind the opening line is the one `wrap` writes, or stands in the
body. -/
theorem closesAt_behind_line (hm : m.Separable) (front after : List Char) (generated : String) :
    ∃ c, m.ClosesAt (front ++ '\n' :: (body generated ++ (m.closing.toList ++ after)))
        (front.length + 1) (front.length + 1 + c) ∧
      c ≤ (body generated).length ∧
      (c = (body generated).length ↔ ¬ m.closing.toList <:+: generated.toList) := by
  have hc := hm.closing_chars
  set text := front ++ '\n' :: (body generated ++ (m.closing.toList ++ after)) with htext
  have hown : StandsAt m.closing.toList text (front.length + 1 + (body generated).length) :=
    Text.standsAt_behind_cons_iff.mpr (Text.standsAt_length_append _ _ _)
  obtain ⟨c, hcloses⟩ : ∃ c, m.ClosesAt text (front.length + 1) (front.length + 1 + c) := by
    rcases closesAt_or_openFrom m text (front.length + 1) with ⟨c, hcloses⟩ | hopen
    · refine ⟨c - (front.length + 1), ?_⟩
      rw [Nat.add_sub_cancel' hcloses.position_le]
      exact hcloses
    · exact absurd hown (hopen _ (by omega))
  have hle : c ≤ (body generated).length := by
    by_contra hlt
    exact hcloses.first _ (by omega) (by omega) hown
  refine ⟨c, hcloses, hle, ?_⟩
  rw [← infix_body_iff hc hm.closing_line]
  constructor
  · rintro rfl hinfix
    obtain ⟨i, hi⟩ := Text.infix_iff_standsAt.mp hinfix
    have hpos := List.length_pos_iff.mpr hc
    have hstop := hi.stop_le hc
    have hstands : StandsAt m.closing.toList text (front.length + 1 + i) :=
      Text.standsAt_behind_cons_iff.mpr ((Text.standsAt_left_iff hc).mp hi).1
    exact hcloses.first _ (by omega) (by omega) hstands
  · intro hnot
    by_contra hne
    -- The body ends in a line end, so a marker that begins in it also ends in it.
    obtain ⟨lines, hlines⟩ := newline_cons_body generated
    have hlength : lines.length = (body generated).length := by
      simpa using (congrArg List.length hlines).symm
    have hcut : text = (front ++ lines) ++ '\n' :: (m.closing.toList ++ after) := by
      rw [htext, ← List.cons_append, hlines]
      simp
    have hstands := hcloses.stands
    rw [hcut] at hstands
    have hcross := Text.standsAt_append_cons hstands hm.closing_line
    rw [List.length_append] at hcross
    have hin : StandsAt m.closing.toList (body generated) c := by
      apply (Text.standsAt_left_iff hc).mpr
      exact ⟨Text.standsAt_behind_cons_iff.mp hcloses.stands, by omega⟩
    exact hnot hin.isInfix

/-- The last opening marker of an opening line and what follows it. -/
theorem lastAt_opening_line (hm : m.Separable) (before inner : List Char) :
    ∃ start, Text.lastAt m.opening.toList (before ++ m.opening.toList ++ '\n' :: inner) =
        some start ∧
      before.length ≤ start ∧ (start = before.length ↔ ¬ m.opening.toList <:+: inner) := by
  have ho := hm.opening_chars
  set text := before ++ m.opening.toList ++ '\n' :: inner with htext
  have hown : StandsAt m.opening.toList text before.length := by
    rw [htext, List.append_assoc]
    exact Text.standsAt_length_append _ _ _
  have hlength : (before ++ m.opening.toList).length =
      before.length + m.opening.toList.length := List.length_append
  cases hlast : Text.lastAt m.opening.toList text with
  | none => exact absurd hown.isInfix (Text.lastAt_eq_none_iff.mp hlast)
  | some start =>
    obtain ⟨hstart, hgreatest⟩ := (Text.lastAt_eq_some_iff ho).mp hlast
    have hle : before.length ≤ start := by
      by_contra hlt
      exact hgreatest _ (by omega) hown
    refine ⟨start, rfl, hle, ?_⟩
    constructor
    · rintro rfl hinfix
      obtain ⟨i, hi⟩ := Text.infix_iff_standsAt.mp hinfix
      exact hgreatest _ (by omega) (Text.standsAt_behind_cons_iff.mpr hi)
    · intro hnot
      rcases Text.standsAt_append_cons hstart hm.opening_line with hleft | hright
      · omega
      · rw [← Nat.add_sub_cancel' hright] at hstart
        exact absurd (Text.standsAt_behind_cons_iff.mp hstart).isInfix hnot

/-- The region that stands in a document behind a text that opens none of its own. The search finds
a part of it, and all of it exactly if the generated text holds neither marker. -/
theorem locate_wrapped (hm : m.Separable) (before after : List Char) (generated : String)
    (hbefore : m.locate (before ++ m.opening.toList) = none) :
    ∃ start stop,
      m.locate (before ++ (m.wrap generated).toList ++ after) = some (start, stop) ∧
      before.length ≤ start ∧
      stop ≤ before.length + (m.wrap generated).toList.length ∧
      (start = before.length ∧ stop = before.length + (m.wrap generated).toList.length ↔
        m.Avoids generated) := by
  have hshape : before ++ (m.wrap generated).toList ++ after =
      (before ++ m.opening.toList) ++ '\n' :: (body generated ++ (m.closing.toList ++ after)) := by
    rw [toList_wrap]
    simp only [List.append_assoc, List.cons_append]
  have hlength : (m.wrap generated).toList.length =
      m.opening.toList.length + 1 + (body generated).length + m.closing.toList.length := by
    rw [toList_wrap]
    simp only [List.length_append, List.length_cons]
    omega
  obtain ⟨c, hcloses, hcle, hclosing⟩ :=
    closesAt_behind_line hm (before ++ m.opening.toList) after generated
  obtain ⟨start, hlast, hle, hopening⟩ :=
    lastAt_opening_line hm before ((body generated).take c)
  have htake : (before ++ m.opening.toList ++ '\n' ::
        (body generated ++ (m.closing.toList ++ after))).take
          ((before ++ m.opening.toList).length + 1 + c) =
      before ++ m.opening.toList ++ '\n' :: (body generated).take c := by
    rw [Nat.add_assoc, List.take_length_add_append, Nat.add_comm 1 c, List.take_succ_cons,
      List.take_append_of_le_length hcle]
  have hfound := locateFrom_of_found hcloses (by rw [htake]; exact hlast)
  rw [← locateFrom_append_newline _ hm.closing_chars hm.closing_line 0 (Nat.zero_le _) hbefore]
    at hfound
  refine ⟨start, _, by rw [hshape]; exact hfound, hle, ?_, ?_⟩
  · rw [hlength, List.length_append]
    omega
  · have hstop : (before ++ m.opening.toList).length + 1 + c + m.closing.toList.length =
        before.length + (m.wrap generated).toList.length ↔ c = (body generated).length := by
      rw [hlength, List.length_append]
      omega
    rw [hstop, hclosing, hopening]
    constructor
    · rintro ⟨ho, hc⟩
      rw [hclosing.mpr hc, List.take_length,
        infix_body_iff hm.opening_chars hm.opening_line] at ho
      exact ⟨ho, hc⟩
    · rintro ⟨ho, hc⟩
      rw [hclosing.mpr hc, List.take_length, infix_body_iff hm.opening_chars hm.opening_line]
      exact ⟨ho, hc⟩

end Markers

namespace Document

variable {m : Markers}

/-- The texts before and behind the region of a document, or, if it has none, before and behind the
place where one is put. -/
def surroundings (m : Markers) (current : List Char) : List Char × List Char :=
  match m.locate current with
  | some (start, stop) => (current.take start, current.drop stop)
  | none => (current ++ gap current, ['\n'])

theorem surroundings_of_located {current : List Char} {start stop : Nat}
    (h : m.locate current = some (start, stop)) :
    surroundings m current = (current.take start, current.drop stop) := by
  rw [surroundings, h]

/-- A text falls into what stands before, between and behind two positions. -/
theorem take_append_slice_append_drop (current : List Char) {start stop : Nat}
    (h : start ≤ stop) :
    current.take start ++ (current.take stop).drop start ++ current.drop stop = current := by
  have hfront : current.take start = (current.take stop).take start := by
    rw [List.take_take, Nat.min_eq_left h]
  rw [hfront, List.take_append_drop, List.take_append_drop]

/-- Patching keeps the surroundings and puts the region between them, whether it replaces a region,
finds it up to date, or appends one. -/
theorem place_text (hc : m.closing.toList ≠ []) (region current : List Char) :
    (place m region current).1 =
      (surroundings m current).1 ++ region ++ (surroundings m current).2 := by
  cases hlocate : m.locate current with
  | none => simp [place, surroundings, hlocate]
  | some bounds =>
    obtain ⟨start, stop⟩ := bounds
    rw [place, surroundings, hlocate]
    dsimp only
    split
    · next hsame =>
      rw [← hsame, take_append_slice_append_drop _ (Markers.locate_span hc hlocate).1]
    · rfl

/-- An empty line behind a text that is not empty ends in a line end, and the text before that line
end is a prefix of the document or adds a line end to it. -/
theorem append_gap_cases (current : List Char) :
    current = [] ∧ current ++ gap current = [] ∨
      ∃ front, current ++ gap current = front ++ ['\n'] ∧
        (front <+: current ∨ front = current ++ ['\n']) := by
  unfold gap
  split
  · next hempty => exact Or.inl ⟨hempty, by rw [hempty]; rfl⟩
  · split
    · next htwo =>
      obtain ⟨front, hfront⟩ := List.isSuffixOf_iff_suffix.mp htwo
      refine Or.inr ⟨front ++ ['\n'], by rw [← hfront]; simp, Or.inl ?_⟩
      exact ⟨['\n'], by rw [← hfront]; simp⟩
    · split
      · exact Or.inr ⟨current, rfl, Or.inl (List.prefix_refl current)⟩
      · exact Or.inr ⟨current ++ ['\n'], by simp, Or.inr rfl⟩

/-- A text without a region has none either if an empty line and an opening marker follow it. -/
theorem locate_append_opening (hc : m.closing.toList ≠ []) (hline : '\n' ∉ m.closing.toList)
    (hapart : ¬ m.closing.toList <:+: m.opening.toList) {current : List Char}
    (hnone : m.locate current = none) :
    m.locate (current ++ gap current ++ m.opening.toList) = none := by
  rcases append_gap_cases current with ⟨-, hempty⟩ | ⟨front, hfront, hwhich⟩
  · rw [hempty, List.nil_append]
    apply Markers.locateFrom_of_openFrom
    intro j _ hstands
    exact hapart hstands.isInfix
  · have hfree : m.locate front = none := by
      rcases hwhich with hbegin | rfl
      · exact Markers.locate_eq_none_of_prefix hc hbegin hnone
      · exact Markers.locate_append_newline_eq_none hc hline hnone (by simpa using hc)
    rw [hfront, List.append_assoc, List.singleton_append]
    exact Markers.locate_append_newline_eq_none hc hline hfree hapart

/-- The text before a region, followed by an opening marker, has no region. A stray opening marker
before the region has no closing one behind it there, and a stray closing marker no opening one
before it. -/
theorem locate_before_opening (hm : m.Separable) (current : List Char) :
    m.locate ((surroundings m current).1 ++ m.opening.toList) = none := by
  have hc := hm.closing_chars
  have hpos := List.length_pos_iff.mpr hc
  cases hlocate : m.locate current with
  | some bounds =>
    obtain ⟨start, stop⟩ := bounds
    have hbounds := Markers.locate_bounds hm.opening_chars hc hlocate
    have hstands := Markers.locate_standsAt hm.opening_chars hc hlocate
    have hbegin : current.take start ++ m.opening.toList =
        current.take (start + m.opening.toList.length) := by
      rw [List.take_add, ← List.prefix_iff_eq_take.mp hstands]
    rw [surroundings_of_located hlocate, hbegin]
    apply Markers.locateFrom_take_eq_none hc 0
    intro start' stop' h
    rw [Markers.locate, h, Option.some.injEq, Prod.mk.injEq] at hlocate
    omega
  | none =>
    rw [surroundings, hlocate]
    exact locate_append_opening hc hm.closing_line hm.closing_apart hlocate

end Document

end ProjectOutline
