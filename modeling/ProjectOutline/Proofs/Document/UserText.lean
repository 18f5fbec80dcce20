import Mathlib.Data.List.Perm.Subperm
import ProjectOutline.Config
import ProjectOutline.Proofs.Document.Absorption

/-!
# Markers that protect the text of a document

A document without a region is user text from its first to its last character. The first patch
appends a region behind it; whether later patches leave the text alone depends on the markers
(`Markers.KeepsText`).

They do if a closing marker lies on one line and is no part of the opening marker: the opening line
that the first patch wrote then stays where it is, and every later region begins at or behind it
(`place_keeps_opening_line`). They do not if the closing marker is a part of the opening one, or
ends in a line end. In both cases an opening marker in the user text is enough: what the first patch
writes behind the text closes a region that begins in the text, and the second patch replaces it
(`not_keepsText_of_bait`).

The check of a configuration accepts markers of both kinds.
-/

namespace ProjectOutline

open Text (StandsAt)

namespace Markers

variable {m : Markers} {text : List Char}

/-- Every history of patches leaves a document without a region as it was, at the beginning of what
is stored. -/
def KeepsText (m : Markers) : Prop :=
  ∀ (bootstrap document : String) (history : List String), m.locate document.toList = none →
    (∀ g ∈ history, m.Avoids g) →
      ∃ stored, Document.runs m bootstrap (some document) history = some stored ∧
        document.toList <+: stored.toList

theorem avoids_empty (ho : m.opening.toList ≠ []) (hc : m.closing.toList ≠ []) : m.Avoids "" where
  opening := by simpa using ho
  closing := by simpa using hc

/-! ## Where a region can begin -/

/-- Behind an opening line that opens no region of its own, a region begins at that line or behind
it. -/
theorem before_le_start {before : List Char} {start stop : Nat} (back : List Char)
    (ho : m.opening.toList ≠ []) (hc : m.closing.toList ≠ []) (hline : '\n' ∉ m.closing.toList)
    (hbefore : m.locate (before ++ m.opening.toList) = none)
    (h : m.locate (before ++ m.opening.toList ++ '\n' :: back) = some (start, stop)) :
    before.length ≤ start := by
  set text := before ++ m.opening.toList ++ '\n' :: back with htext
  rw [locate, htext, locateFrom_append_newline back hc hline 0 (Nat.zero_le _) hbefore] at h
  have hposition := position_le_of_locateFrom hc _ h
  obtain ⟨c, -, rfl, hlast⟩ := locateFrom_eq_some hc _ h
  obtain ⟨-, hgreatest⟩ := (Text.lastAt_eq_some_iff ho).mp hlast
  rw [List.length_append] at hposition
  by_contra hlt
  apply hgreatest before.length (by omega)
  rw [Text.standsAt_take_iff ho, List.append_assoc]
  exact ⟨Text.standsAt_length_append _ _ _, by omega⟩

/-- A text that begins with an opening marker, which is the only one complete before the closing
marker at `c`. Closing markers that begin inside it are no longer than it. -/
theorem locate_eq_some_zero {c : Nat} (ho : m.opening.toList ≠ []) (hc : m.closing.toList ≠ [])
    (hbegin : m.opening.toList <+: text) (hcloses : m.ClosesAt text m.opening.toList.length c)
    (hinner : ∀ j, j < m.opening.toList.length → StandsAt m.closing.toList text j →
      j + m.closing.toList.length ≤ m.opening.toList.length)
    (honly : ∀ j, 0 < j → StandsAt m.opening.toList text j → c < j + m.opening.toList.length) :
    m.locate text = some (0, c + m.closing.toList.length) := by
  have hfront : ∀ k, m.opening.toList.length ≤ k → m.opening.toList <:+: text.take k :=
    fun k hk => (List.prefix_take_iff.mpr ⟨hbegin, hk⟩).isInfix
  have hscan : ∀ position, position ≤ m.opening.toList.length →
      m.locateFrom text position = some (0, c + m.closing.toList.length) := by
    intro position
    -- The search stays inside the opening marker until it comes to `c`.
    induction position using scan_induction text hc with
    | absent position hopen =>
      intro hle
      exact absurd hcloses.stands (hopen c (Nat.le_trans hle hcloses.position_le))
    | found position c' start hcloses' hlast =>
      intro hle
      obtain ⟨hstart, -⟩ := (Text.lastAt_eq_some_iff ho).mp hlast
      obtain ⟨hstands, hstop⟩ := (Text.standsAt_take_iff ho).mp hstart
      have hsame : c' = c := by
        rcases Nat.lt_trichotomy c' c with hlt | heq | hgt
        · exact absurd hcloses'.stands (hcloses.first c' (by omega) hlt)
        · exact heq
        · have hposition := hcloses.position_le
          exact absurd hcloses.stands (hcloses'.first c (by omega) hgt)
      have hzero : start = 0 := by
        by_contra hne
        have hbehind := honly start (by omega) hstands
        omega
      rw [locateFrom_of_found hcloses' hlast, hsame, hzero]
    | retry position c' hcloses' hno ih =>
      intro hle
      have hlt : c' < m.opening.toList.length := by
        by_contra hge
        exact hno (hfront c' (by omega))
      rw [locateFrom_of_retry hc hcloses' hno]
      exact ih (hinner c' hlt hcloses'.stands)
  exact hscan 0 (Nat.zero_le _)

/-- A text in which every closing marker begins too early to have an opening marker before it. -/
theorem locate_eq_none_of_early (ho : m.opening.toList ≠ []) (hc : m.closing.toList ≠ [])
    (hearly : ∀ j, StandsAt m.closing.toList text j → j < m.opening.toList.length) :
    m.locate text = none := by
  cases hlocate : m.locate text with
  | none => rfl
  | some bounds =>
    obtain ⟨start, stop⟩ := bounds
    obtain ⟨c, hstands, -, hlast⟩ := locateFrom_eq_some hc 0 hlocate
    obtain ⟨hstart, -⟩ := (Text.lastAt_eq_some_iff ho).mp hlast
    have hstop := ((Text.standsAt_take_iff ho).mp hstart).2
    have hlt := hearly c hstands
    omega

end Markers

namespace Document

variable {m : Markers}

/-! ## Protected text -/

/-- One patch keeps an opening line that opens no region of its own. -/
theorem place_keeps_opening_line {before current : List Char} (generated : String)
    (ho : m.opening.toList ≠ []) (hc : m.closing.toList ≠ []) (hline : '\n' ∉ m.closing.toList)
    (hbefore : m.locate (before ++ m.opening.toList) = none)
    (hcurrent : before ++ m.opening.toList ++ ['\n'] <+: current) :
    before ++ m.opening.toList ++ ['\n'] <+: (place m (m.wrap generated).toList current).1 := by
  cases hlocate : m.locate current with
  | none =>
    rw [place, hlocate]
    dsimp only
    rw [List.append_assoc current, List.append_assoc current]
    exact hcurrent.trans (List.prefix_append _ _)
  | some bounds =>
    obtain ⟨start, stop⟩ := bounds
    obtain ⟨back, hback⟩ := hcurrent
    have hstands := Markers.locate_standsAt ho hc hlocate
    have hle : before.length ≤ start := by
      rw [← hback, List.append_assoc, List.singleton_append] at hlocate
      exact Markers.before_le_start back ho hc hline hbefore hlocate
    rw [place, hlocate]
    dsimp only
    split
    · exact ⟨back, hback⟩
    · rw [Markers.toList_wrap]
      rcases Nat.eq_or_lt_of_le hle with rfl | hlt
      · have htake : current.take before.length = before := by
          rw [← hback]
          simp
        rw [htake]
        simp
      · -- The line ends before the new opening marker does, and up to there nothing changes.
        have hopening : current.take start ++ m.opening.toList =
            current.take (start + m.opening.toList.length) := by
          rw [List.take_add, ← List.prefix_iff_eq_take.mp hstands]
        have hkept : before ++ m.opening.toList ++ ['\n'] <+:
            current.take (start + m.opening.toList.length) := by
          rw [List.prefix_take_iff]
          refine ⟨⟨back, hback⟩, ?_⟩
          simp only [List.length_append, List.length_singleton]
          omega
        refine hkept.trans ?_
        rw [← hopening]
        simp

theorem runs_keep_opening_line {before : List Char} (ho : m.opening.toList ≠ [])
    (hc : m.closing.toList ≠ []) (hline : '\n' ∉ m.closing.toList)
    (hbefore : m.locate (before ++ m.opening.toList) = none) (bootstrap : String)
    (history : List String) (current : String)
    (hcurrent : before ++ m.opening.toList ++ ['\n'] <+: current.toList) :
    ∃ stored, runs m bootstrap (some current) history = some stored ∧
      before ++ m.opening.toList ++ ['\n'] <+: stored.toList := by
  induction history generalizing current with
  | nil => exact ⟨current, rfl, hcurrent⟩
  | cons g rest ih =>
    apply ih
    change _ <+: (String.ofList (place m (m.wrap g).toList current.toList).1).toList
    rw [String.toList_ofList]
    exact place_keeps_opening_line g ho hc hline hbefore hcurrent

/-- A document with a region appended to it. -/
def extended (m : Markers) (generated : String) (document : List Char) : List Char :=
  document ++ (gap document ++ (m.wrap generated).toList ++ ['\n'])

/-- What the first patch makes of a document without a region. -/
theorem patch_of_no_region {document : String} (generated bootstrap : String)
    (hnone : m.locate document.toList = none) :
    (patch (some document) generated m bootstrap).text.toList =
      extended m generated document.toList := by
  rw [patch]
  simp [place, hnone, extended]

/-- A closing marker on one line that is no part of the opening marker protects the text. The
opening marker may have line ends. -/
theorem keepsText_of_apart (ho : m.opening.toList ≠ []) (hc : m.closing.toList ≠ [])
    (hline : '\n' ∉ m.closing.toList) (hapart : ¬ m.closing.toList <:+: m.opening.toList) :
    m.KeepsText := by
  intro bootstrap document history hnone _
  cases history with
  | nil => exact ⟨document, rfl, List.prefix_refl _⟩
  | cons g rest =>
    have hbefore := locate_append_opening hc hline hapart hnone
    have hfirst : document.toList ++ gap document.toList ++ m.opening.toList ++ ['\n'] <+:
        (patch (some document) g m bootstrap).text.toList := by
      rw [patch_of_no_region g bootstrap hnone, extended, Markers.toList_wrap]
      simp
    obtain ⟨stored, hstored, hkept⟩ :=
      runs_keep_opening_line ho hc hline hbefore bootstrap rest _ hfirst
    refine ⟨stored, hstored, List.IsPrefix.trans ?_ hkept⟩
    simp

/-! ## Text that is swallowed -/

/-- If the region of the patched document begins with the document, a second patch replaces the
document. -/
theorem not_keepsText_of_swallowed {c : Char} {rest : List Char} (stop : Nat)
    (ho : m.opening.toList ≠ []) (hclosing : m.closing.toList ≠ []) (hc : c ≠ '\n')
    (hnone : m.locate (m.opening.toList ++ c :: rest) = none)
    (hswallowed : m.locate (extended m "" (m.opening.toList ++ c :: rest)) = some (0, stop)) :
    ¬ m.KeepsText := by
  intro hkeeps
  have hempty := Markers.avoids_empty ho hclosing
  obtain ⟨stored, hstored, hkept⟩ := hkeeps "" (String.ofList (m.opening.toList ++ c :: rest))
    ["", ""] (by rwa [String.toList_ofList]) (by simpa using hempty)
  set first := (patch (some (String.ofList (m.opening.toList ++ c :: rest))) "" m "").text
  have hfirst : first.toList = extended m "" (m.opening.toList ++ c :: rest) := by
    rw [patch_of_no_region "" "" (by rwa [String.toList_ofList]), String.toList_ofList]
  rw [String.toList_ofList] at hkept
  rw [← hfirst] at hswallowed
  have hbounds := Markers.locate_bounds ho hclosing hswallowed
  have hpos := List.length_pos_iff.mpr hclosing
  -- The character behind the opening marker tells the document from the region.
  have hwrap : (m.wrap "").toList[m.opening.toList.length]? = some '\n' := by
    rw [Markers.toList_wrap]
    simp
  have hdocument : first.toList[m.opening.toList.length]? = some c := by
    rw [hfirst, extended]
    simp
  have hdiffers : (first.toList.take stop).drop 0 ≠ (m.wrap "").toList := by
    intro hsame
    rw [← hsame, List.drop_zero, List.getElem?_take_of_lt (by omega), hdocument] at hwrap
    exact hc (Option.some.inj hwrap)
  have hsecond : stored.toList = (m.wrap "").toList ++ first.toList.drop stop := by
    have hlast : runs m "" (some (String.ofList (m.opening.toList ++ c :: rest))) ["", ""] =
        some (String.ofList (place m (m.wrap "").toList first.toList).1) := rfl
    rw [hlast, Option.some.injEq] at hstored
    rw [← hstored, String.toList_ofList, place, hswallowed]
    simp only [if_neg hdiffers, List.take_zero, List.nil_append]
  have hat : stored.toList[m.opening.toList.length]? = some c := by
    obtain ⟨more, hmore⟩ := hkept
    rw [← hmore]
    simp
  rw [hsecond, List.getElem?_append_left (by rw [Markers.toList_wrap]; simp), hwrap] at hat
  exact hc (Option.some.inj hat).symm

/-- An opening marker with a tail in which no closing marker ends. The document has no region; if
what is appended to it closes the opening marker, before another one is complete, it is
swallowed. -/
theorem not_keepsText_of_bait {c : Char} {tail : List Char} {position : Nat}
    (ho : m.opening.toList ≠ []) (hclosing : m.closing.toList ≠ []) (hc : c ≠ '\n')
    (hlong : m.closing.toList.length ≤ tail.length + 2)
    (hclear : ∀ back j, StandsAt m.closing.toList (m.opening.toList ++ c :: tail ++ back) j →
      j + m.closing.toList.length ≤ m.opening.toList.length ∨
        m.opening.toList.length + tail.length + 1 < j + m.closing.toList.length)
    (hcloses : m.ClosesAt (extended m "" (m.opening.toList ++ c :: tail)) m.opening.toList.length
      position)
    (honly : ∀ j, 0 < j →
      StandsAt m.opening.toList (extended m "" (m.opening.toList ++ c :: tail)) j →
        position < j + m.opening.toList.length) : ¬ m.KeepsText := by
  have hpos := List.length_pos_iff.mpr hclosing
  have hnone : m.locate (m.opening.toList ++ c :: tail) = none := by
    apply Markers.locate_eq_none_of_early ho hclosing
    intro j hj
    have hstop := hj.stop_le hclosing
    rw [List.length_append, List.length_cons] at hstop
    have hwhere := hclear [] j (by rwa [List.append_nil])
    omega
  refine not_keepsText_of_swallowed (position + m.closing.toList.length) ho hclosing hc hnone ?_
  refine Markers.locate_eq_some_zero ho hclosing ?_ hcloses ?_ honly
  · rw [extended, List.append_assoc]
    exact List.prefix_append _ _
  · intro j hj hstands
    have hwhere := hclear _ j hstands
    omega

theorem exists_char_not_mem (used : List Char) (h : used.length < 5) : ∃ c, c ∉ used := by
  by_contra hall
  push Not at hall
  have hnodup : ['a', 'b', 'c', 'd', 'e'].Nodup := by decide
  have hlength := (List.Nodup.subperm hnodup fun c _ => hall c).length_le
  simp only [List.length_cons, List.length_nil] at hlength
  omega

section Run

variable {opening pattern back : List Char} {c : Char}

/-- An opening marker and a longer run of one character behind it. -/
def beforeRun (opening : List Char) (c : Char) : List Char :=
  opening ++ c :: List.replicate opening.length c

theorem length_beforeRun : (beforeRun opening c).length = 2 * opening.length + 1 := by
  simp only [beforeRun, List.length_append, List.length_cons, List.length_replicate]
  omega

theorem getElem?_beforeRun {k : Nat} (hlow : opening.length ≤ k) (hhigh : k ≤ 2 * opening.length) :
    (beforeRun opening c ++ back)[k]? = some c := by
  rw [List.getElem?_append_left (by rw [length_beforeRun]; omega), beforeRun,
    List.getElem?_append_right hlow, ← List.replicate_succ, List.getElem?_replicate,
    if_pos (by omega)]

/-- An occurrence that does not end in the run ends before it or behind it. -/
theorem stop_outside_run {j : Nat} (h : StandsAt pattern (beforeRun opening c ++ back) j)
    (hp : pattern ≠ []) (hlast : c ≠ pattern.getLast hp) :
    j + pattern.length ≤ opening.length ∨ 2 * opening.length + 1 < j + pattern.length := by
  have hpos := List.length_pos_iff.mpr hp
  by_contra hwithin
  have hat := Text.StandsAt.getElem?_last h hp
  rw [getElem?_beforeRun (by omega) (by omega)] at hat
  exact hlast (Option.some.inj hat)

/-- An occurrence that does not begin in the run begins before it or behind it. -/
theorem start_outside_run {j : Nat} (h : StandsAt pattern (beforeRun opening c ++ back) j)
    (hp : pattern ≠ []) (hhead : c ≠ pattern.head hp) :
    j < opening.length ∨ 2 * opening.length < j := by
  by_contra hwithin
  have hat := Text.StandsAt.getElem?_first h hp
  rw [getElem?_beforeRun (by omega) (by omega)] at hat
  exact hhead (Option.some.inj hat)

end Run

/-- A closing marker that is a part of the opening marker: the opening marker of the appended region
closes a region that an opening marker in the text opens. -/
theorem not_keepsText_of_closing_in_opening (ho : m.opening.toList ≠ [])
    (hc : m.closing.toList ≠ []) (hin : m.closing.toList <:+: m.opening.toList) :
    ¬ m.KeepsText := by
  obtain ⟨c, hfresh⟩ := exists_char_not_mem
    ['\n', m.closing.toList.getLast hc, m.opening.toList.head ho, m.opening.toList.getLast ho]
    (by simp)
  simp only [List.mem_cons, List.not_mem_nil, or_false, not_or] at hfresh
  obtain ⟨hnewline, hclosing, hhead, hlast⟩ := hfresh
  obtain ⟨offset, hoffset⟩ := Text.infix_iff_standsAt.mp hin
  have hfits := hoffset.stop_le hc
  have hpos := List.length_pos_iff.mpr hc
  set text := extended m "" (beforeRun m.opening.toList c) with htext
  -- Every opening marker brings a closing marker with it.
  have hbrings : ∀ j, StandsAt m.opening.toList text j →
      StandsAt m.closing.toList text (j + offset) := by
    intro j hj
    obtain ⟨rest, hrest⟩ := hj
    rw [← Text.standsAt_drop_iff, ← hrest]
    exact ((Text.standsAt_left_iff hc).mp hoffset).1
  have hown : StandsAt m.opening.toList text ((beforeRun m.opening.toList c).length +
      (gap (beforeRun m.opening.toList c)).length) := by
    rw [htext, extended, Text.standsAt_right_iff, Markers.toList_wrap]
    simp only [List.append_assoc]
    exact Text.standsAt_length_append _ _ _
  obtain ⟨position, hcloses⟩ : ∃ position, m.ClosesAt text m.opening.toList.length position := by
    rcases Markers.closesAt_or_openFrom m text m.opening.toList.length with hfound | hopen
    · exact hfound
    · refine absurd (hbrings _ hown) (hopen _ ?_)
      rw [length_beforeRun]
      omega
  refine not_keepsText_of_bait ho hc hnewline ?_ ?_ hcloses ?_
  · rw [List.length_replicate]
    omega
  · intro back j hstands
    have hwhere := stop_outside_run hstands hc hclosing
    rw [List.length_replicate]
    omega
  · intro j hj hstands
    by_contra hle
    have hstop := stop_outside_run hstands ho hlast
    have hstart := start_outside_run hstands ho hhead
    exact hcloses.first (j + offset) (by omega) (by omega) (hbrings j hstands)

/-- Two line ends follow a text that does not end in one. -/
theorem gap_of_line {front line : List Char} (hne : line ≠ []) (hline : '\n' ∉ line) :
    gap (front ++ line) = ['\n', '\n'] := by
  obtain ⟨init, last, rfl⟩ : ∃ init last, line = init ++ [last] :=
    ⟨_, _, (List.dropLast_append_getLast hne).symm⟩
  have hends : ∀ lines, ¬ lines ++ ['\n'] <:+ front ++ (init ++ [last]) := by
    rintro lines ⟨rest, hrest⟩
    have hlast := congrArg List.getLast? hrest
    simp only [List.getLast?_append, List.getLast?_singleton, Option.some_or,
      Option.some.injEq] at hlast
    rw [hlast] at hline
    simp at hline
  have hone : ¬ ['\n'] <:+ front ++ (init ++ [last]) := hends []
  have htwo : ¬ ['\n', '\n'] <:+ front ++ (init ++ [last]) := hends ['\n']
  simp [gap, List.isSuffixOf_iff_suffix, hone, htwo]

/-- A line with its end is completed only behind the same line without one. -/
theorem stop_outside_line {opening line back : List Char} {c : Char} {j : Nat}
    (h : StandsAt (line ++ ['\n']) (opening ++ c :: line ++ back) j) (hline : '\n' ∉ c :: line) :
    j + line.length < opening.length ∨ opening.length < j := by
  by_contra hwithin
  have hat := h.getElem?_last (by simp)
  apply hline
  apply List.mem_of_getElem? (i := j + line.length - opening.length)
  have hinside : j + line.length < (opening ++ c :: line).length := by
    rw [List.length_append, List.length_cons]
    omega
  rw [← List.getElem?_append_right (by omega), ← List.getElem?_append_left hinside]
  simpa using hat

/-- A closing marker with a line end: the empty line before the appended region completes a closing
marker in the text. -/
theorem not_keepsText_of_closing_line {line : List Char} (ho : m.opening.toList ≠ [])
    (hclosing : m.closing.toList = line ++ ['\n']) (hne : line ≠ []) (hline : '\n' ∉ line) :
    ¬ m.KeepsText := by
  obtain ⟨c, hfresh⟩ := exists_char_not_mem ['\n', m.opening.toList.getLast ho] (by simp)
  simp only [List.mem_cons, List.not_mem_nil, or_false, not_or] at hfresh
  obtain ⟨hnewline, hlast⟩ := hfresh
  have hc : m.closing.toList ≠ [] := by simp [hclosing]
  have hlength : m.closing.toList.length = line.length + 1 := by simp [hclosing]
  have hwhere : ∀ back j, StandsAt m.closing.toList (m.opening.toList ++ c :: line ++ back) j →
      j + line.length < m.opening.toList.length ∨ m.opening.toList.length < j := by
    intro back j hj
    rw [hclosing] at hj
    exact stop_outside_line hj (by simp [hline, Ne.symm hnewline])
  have htext : extended m "" (m.opening.toList ++ c :: line) = (m.opening.toList ++ [c]) ++
      (m.closing.toList ++ ('\n' :: ((m.wrap "").toList ++ ['\n']))) := by
    have hmove : m.opening.toList ++ c :: line = m.opening.toList ++ [c] ++ line := by simp
    rw [extended, hmove, gap_of_line hne hline, hclosing]
    simp
  have hcloses : m.ClosesAt (extended m "" (m.opening.toList ++ c :: line))
      m.opening.toList.length (m.opening.toList.length + 1) := by
    refine ⟨by omega, ?_, ?_⟩
    · have hat := Text.standsAt_length_append (m.opening.toList ++ [c]) m.closing.toList
        ('\n' :: ((m.wrap "").toList ++ ['\n']))
      rwa [← htext, List.length_append, List.length_singleton] at hat
    · intro j hlow hhigh hstands
      have hout := hwhere _ j hstands
      omega
  refine not_keepsText_of_bait ho hc hnewline (by omega) ?_ hcloses ?_
  · intro back j hstands
    have hout := hwhere back j hstands
    omega
  · intro j hj hstands
    -- A second opening marker before the closing one would end in the fresh character.
    by_contra hle
    have hpos := List.length_pos_iff.mpr ho
    have hat := hstands.getElem?_last ho
    have hindex : j + (m.opening.toList.length - 1) = m.opening.toList.length := by omega
    rw [hindex, htext] at hat
    simp only [List.append_assoc, List.getElem?_append_right (Nat.le_refl _), Nat.sub_self,
      List.cons_append, List.getElem?_cons_zero] at hat
    exact hlast (Option.some.inj hat)

end Document

/-! ## Accepted markers -/

namespace Config

theorem toList_ne_nil_of_trim_ne {text : String} (h : Text.trim text ≠ "") : text.toList ≠ [] := by
  intro hnil
  rw [String.toList_eq_nil_iff.mp hnil] at h
  exact h rfl

theorem markers_ne_of_validate {config : Config} (accepted : config.validate = .ok config) :
    Text.trim config.markers.opening ≠ "" ∧ Text.trim config.markers.closing ≠ "" := by
  rw [validate] at accepted
  split at accepted
  · cases accepted
  · next hnot => simpa using hnot

/-- **Which accepted markers protect the text of a document.** A closing marker on one line that is
no part of the opening marker protects it, and one that is a part of the opening marker does not. If
the closing marker lies on one line, with or without the end of that line, the text before an
appended region survives every history of patches exactly if the marker has no line end and is no
part of the opening marker; the check of a configuration asks for neither. -/
theorem accepted_markers_keep_text_iff (config : Config)
    (accepted : config.validate = .ok config) :
    ('\n' ∉ config.markers.closing.toList →
      ¬ config.markers.closing.toList <:+: config.markers.opening.toList →
        config.markers.KeepsText) ∧
    (config.markers.closing.toList <:+: config.markers.opening.toList →
      ¬ config.markers.KeepsText) ∧
    ('\n' ∉ config.markers.closing.toList.dropLast →
      (config.markers.KeepsText ↔
        '\n' ∉ config.markers.closing.toList ∧
          ¬ config.markers.closing.toList <:+: config.markers.opening.toList)) := by
  obtain ⟨hopening, hclosing⟩ := markers_ne_of_validate accepted
  have ho := toList_ne_nil_of_trim_ne hopening
  have hc := toList_ne_nil_of_trim_ne hclosing
  have hprotects := Document.keepsText_of_apart ho hc
  have hloses := Document.not_keepsText_of_closing_in_opening ho hc
  refine ⟨hprotects, hloses, fun hline => ⟨fun hkeeps => ?_, fun hfit => hprotects hfit.1 hfit.2⟩⟩
  refine ⟨fun hmem => ?_, fun hin => hloses hin hkeeps⟩
  have hsplit := List.dropLast_append_getLast hc
  have hlast : config.markers.closing.toList.getLast hc = '\n' := by
    rw [← hsplit] at hmem
    rcases List.mem_append.mp hmem with hfront | hend
    · exact absurd hfront hline
    · exact (List.mem_singleton.mp hend).symm
  rw [hlast] at hsplit
  refine Document.not_keepsText_of_closing_line ho hsplit.symm ?_ hline hkeeps
  intro hempty
  rw [hempty] at hsplit
  apply hclosing
  rw [← String.ofList_toList (s := config.markers.closing), ← hsplit]
  rfl

/-- The standard markers protect the text. -/
theorem accepted_markers_keep_text_standard :
    standard.validate = .ok standard ∧ standard.markers.KeepsText :=
  have haccepted : standard.validate = .ok standard := by decide
  ⟨haccepted, (accepted_markers_keep_text_iff standard haccepted).1 (by decide) (by decide)⟩

/-- A configuration whose closing marker ends the opening one. -/
def sharedEnd : Config :=
  { standard with markers := ⟨"<!-- map -->", "-->"⟩ }

/-- A note that mentions the opening marker is lost with the second patch, though the configuration
is accepted, the note holds no region, and the generated text holds no marker. -/
theorem accepted_markers_lose_text :
    sharedEnd.validate = .ok sharedEnd ∧
      sharedEnd.markers.locate "The <!-- map --> marker.\n".toList = none ∧
      sharedEnd.markers.Avoids "- a.js\n" ∧
      ∃ stored, Document.runs sharedEnd.markers "" (some "The <!-- map --> marker.\n")
          ["- a.js\n", "- a.js\n"] = some stored ∧
        ¬ "The <!-- map --> marker.\n".toList <+: stored.toList := by
  refine ⟨by decide, by cbv, ⟨by decide, by decide⟩,
    "The <!-- map -->\n- a.js\n-->\n- a.js\n-->\n", by cbv, by decide⟩

end Config

end ProjectOutline
