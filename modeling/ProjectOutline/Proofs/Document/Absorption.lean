import ProjectOutline.Proofs.Document.Surroundings

/-!
# Repeated patches

A patched document consists of the surroundings of the document it came from and the new region
(`patch_text`). If the generated text holds neither marker, these surroundings are found again
(`surroundings_written`), so that a later patch forgets the earlier one. The main statement covers
every document, a missing one included, and every history of patches.

Whether a second patch with the same text changes nothing is decided by that text alone
(`patch_again_eq_iff`).
-/

namespace ProjectOutline.Document

variable {m : Markers}

/-- Nothing changes exactly if the region found is the one to be placed. -/
theorem place_unchanged_iff (region current : List Char) :
    (place m region current).2 = false ↔
      ∃ start stop, m.locate current = some (start, stop) ∧
        (current.take stop).drop start = region := by
  cases hlocate : m.locate current with
  | none => simp [place, hlocate]
  | some bounds =>
    obtain ⟨start, stop⟩ := bounds
    rw [place, hlocate]
    dsimp only
    split
    · next hsame => exact ⟨fun _ => ⟨start, stop, rfl, hsame⟩, fun _ => rfl⟩
    · next hdiffer =>
      constructor
      · intro h
        cases h
      · rintro ⟨start', stop', hbounds, hsame⟩
        rw [Option.some.injEq, Prod.mk.injEq] at hbounds
        obtain ⟨rfl, rfl⟩ := hbounds
        exact absurd hsame hdiffer

/-- The region between two texts, cut out at its two ends. -/
theorem take_drop_middle (before region after : List Char) :
    ((before ++ region ++ after).take (before.length + region.length)).drop before.length =
      region := by
  rw [← List.length_append, List.take_left, List.drop_left]

/-! ## Documents with a written region -/

section Written

variable {before : List Char} (after : List Char)

/-- A region whose text avoids the markers is found again, between the same two texts. -/
theorem locate_written (hm : m.Separable) {generated : String} (hg : m.Avoids generated)
    (hbefore : m.locate (before ++ m.opening.toList) = none) :
    m.locate (before ++ (m.wrap generated).toList ++ after) =
      some (before.length, before.length + (m.wrap generated).toList.length) := by
  obtain ⟨start, stop, hlocate, -, -, hexact⟩ :=
    Markers.locate_wrapped hm before after generated hbefore
  obtain ⟨rfl, rfl⟩ := hexact.mpr hg
  exact hlocate

theorem surroundings_written (hm : m.Separable) {generated : String} (hg : m.Avoids generated)
    (hbefore : m.locate (before ++ m.opening.toList) = none) :
    surroundings m (before ++ (m.wrap generated).toList ++ after) = (before, after) := by
  rw [surroundings_of_located (locate_written after hm hg hbefore), ← List.length_append,
    List.drop_left, List.append_assoc, List.take_left]

/-- Over a region whose text avoids the markers, only the same region changes nothing. -/
theorem place_written_unchanged_iff (hm : m.Separable) {generated : String}
    (hg : m.Avoids generated) (hbefore : m.locate (before ++ m.opening.toList) = none)
    (region : List Char) :
    (place m region (before ++ (m.wrap generated).toList ++ after)).2 = false ↔
      (m.wrap generated).toList = region := by
  rw [place_unchanged_iff, locate_written after hm hg hbefore]
  constructor
  · rintro ⟨start, stop, hbounds, hslice⟩
    rw [Option.some.injEq, Prod.mk.injEq] at hbounds
    obtain ⟨rfl, rfl⟩ := hbounds
    rw [← hslice, take_drop_middle]
  · intro hsame
    exact ⟨_, _, rfl, by rw [take_drop_middle, hsame]⟩

/-- Placing a region over itself changes nothing exactly if its text avoids the markers: otherwise
the search stops at a marker inside, and what it finds is shorter. -/
theorem place_again_unchanged_iff (hm : m.Separable) (generated : String)
    (hbefore : m.locate (before ++ m.opening.toList) = none) :
    (place m (m.wrap generated).toList (before ++ (m.wrap generated).toList ++ after)).2 = false ↔
      m.Avoids generated := by
  constructor
  · intro hsame
    obtain ⟨start, stop, hlocate, hstart, hstop, hexact⟩ :=
      Markers.locate_wrapped hm before after generated hbefore
    obtain ⟨start', stop', hlocate', hslice⟩ := (place_unchanged_iff _ _).mp hsame
    rw [hlocate, Option.some.injEq, Prod.mk.injEq] at hlocate'
    obtain ⟨rfl, rfl⟩ := hlocate'
    have hbounds := Markers.locate_bounds hm.opening_chars hm.closing_chars hlocate
    have hlength := congrArg List.length hslice
    rw [List.length_drop, List.length_take, Nat.min_eq_left hbounds.2] at hlength
    exact hexact.mp (by omega)
  · intro hg
    exact (place_written_unchanged_iff after hm hg hbefore _).mpr rfl

end Written

/-! ## Patching a patched document -/

theorem outcome_eq {outcome : Outcome} {text : String} {changed : Bool}
    (htext : outcome.text = text) (hchanged : outcome.changed = changed) :
    outcome = ⟨text, changed⟩ := by
  rw [← htext, ← hchanged]

/-- A patched document is the region between the surroundings of the document it came from. -/
theorem patch_text (hm : m.Separable) (existing : Option String) (generated bootstrap : String) :
    (patch existing generated m bootstrap).text =
      String.ofList ((surroundings m (existing.getD bootstrap).toList).1 ++
        (m.wrap generated).toList ++ (surroundings m (existing.getD bootstrap).toList).2) := by
  rw [← place_text hm.closing_chars]
  cases existing <;> rfl

/-- The text of a document after a patch depends on the surroundings alone. -/
theorem patch_text_of_surroundings (hm : m.Separable) {stored other : Option String}
    (generated bootstrap : String)
    (h : surroundings m (stored.getD bootstrap).toList =
      surroundings m (other.getD bootstrap).toList) :
    (patch stored generated m bootstrap).text = (patch other generated m bootstrap).text := by
  rw [patch_text hm, patch_text hm, h]

theorem surroundings_patch (hm : m.Separable) (existing : Option String)
    {generated : String} (bootstrap : String) (hg : m.Avoids generated) :
    surroundings m (patch existing generated m bootstrap).text.toList =
      surroundings m (existing.getD bootstrap).toList := by
  rw [patch_text hm, String.toList_ofList]
  exact surroundings_written _ hm hg (locate_before_opening hm _)

theorem patch_patch_changed_iff (hm : m.Separable) (existing : Option String)
    {first : String} (second bootstrap : String) (hfirst : m.Avoids first) :
    (patch (some (patch existing first m bootstrap).text) second m bootstrap).changed = false ↔
      m.wrap first = m.wrap second := by
  change (place m (m.wrap second).toList
    (patch existing first m bootstrap).text.toList).2 = false ↔ _
  rw [patch_text hm, String.toList_ofList,
    place_written_unchanged_iff _ hm hfirst (locate_before_opening hm _), String.toList_inj]

/-- A second patch with the same text changes nothing exactly if the text holds neither marker. -/
theorem patch_again_changed_iff (hm : m.Separable) (existing : Option String)
    (generated bootstrap : String) :
    (patch (some (patch existing generated m bootstrap).text) generated m bootstrap).changed =
        false ↔ m.Avoids generated := by
  change (place m (m.wrap generated).toList
    (patch existing generated m bootstrap).text.toList).2 = false ↔ _
  rw [patch_text hm, String.toList_ofList]
  exact place_again_unchanged_iff _ hm generated (locate_before_opening hm _)

/-- A second patch with the same text gives the document back exactly if the text holds neither
marker. -/
theorem patch_again_eq_iff (hm : m.Separable) (existing : Option String)
    (generated bootstrap : String) :
    patch (some (patch existing generated m bootstrap).text) generated m bootstrap =
        ⟨(patch existing generated m bootstrap).text, false⟩ ↔ m.Avoids generated := by
  rw [← patch_again_changed_iff hm existing generated bootstrap]
  constructor
  · intro hsame
    rw [hsame]
  · intro hchanged
    have hg := (patch_again_changed_iff hm existing generated bootstrap).mp hchanged
    exact outcome_eq
      (patch_text_of_surroundings hm _ _ (surroundings_patch hm existing bootstrap hg)) hchanged

/-- The stored document after a history of patches, the oldest first. -/
def runs (m : Markers) (bootstrap : String) (existing : Option String) (history : List String) :
    Option String :=
  history.foldl (fun stored generated => some (patch stored generated m bootstrap).text) existing

theorem surroundings_runs (hm : m.Separable) (bootstrap : String) (existing : Option String)
    (history : List String) (hhistory : ∀ g ∈ history, m.Avoids g) :
    surroundings m ((runs m bootstrap existing history).getD bootstrap).toList =
      surroundings m (existing.getD bootstrap).toList := by
  induction history generalizing existing with
  | nil => rfl
  | cons g rest ih =>
    rw [runs, List.foldl_cons, ← runs, ih _ fun x hx => hhistory x (by simp [hx])]
    exact surroundings_patch hm existing bootstrap (hhistory g (by simp))

/-- **A patch absorbs the patches before it.** The text after two patches is the text after the
second alone, which changes nothing exactly if the two regions are equal; a second run is a no-op,
and after a history of runs only the original document and the last text count. The last text may
hold markers; the earlier ones may not. -/
theorem patch_absorbs_earlier (m : Markers) (hm : m.Separable) (existing : Option String)
    (bootstrap : String) :
    (∀ first second, m.Avoids first →
      (patch (some (patch existing first m bootstrap).text) second m bootstrap).text =
          (patch existing second m bootstrap).text ∧
        ((patch (some (patch existing first m bootstrap).text) second m bootstrap).changed =
          false ↔ m.wrap first = m.wrap second)) ∧
    (∀ generated, m.Avoids generated →
      patch (some (patch existing generated m bootstrap).text) generated m bootstrap =
        ⟨(patch existing generated m bootstrap).text, false⟩) ∧
    (∀ history last, (∀ g ∈ history, m.Avoids g) →
      runs m bootstrap existing (history ++ [last]) =
        some (patch existing last m bootstrap).text) := by
  refine ⟨fun first second hfirst => ⟨?_, ?_⟩, fun generated hg => ?_, fun history last hall => ?_⟩
  · exact patch_text_of_surroundings hm _ _ (surroundings_patch hm existing bootstrap hfirst)
  · exact patch_patch_changed_iff hm existing second bootstrap hfirst
  · exact (patch_again_eq_iff hm existing generated bootstrap).mpr hg
  · rw [runs, List.foldl_append, ← runs]
    exact congrArg some (patch_text_of_surroundings hm _ _
      (surroundings_runs hm bootstrap existing history hall))

/-- Markers that share a character: the first `a]` of the document begins inside an opening marker
and closes nothing. -/
theorem patch_absorbs_earlier_overlapping :
    (⟨"[a", "a]"⟩ : Markers).Separable ∧ (⟨"[a", "a]"⟩ : Markers).Avoids "x" ∧
      patch (some "[a]\nold\na] end") "y" ⟨"[a", "a]"⟩ "" = ⟨"[a\ny\na] end", true⟩ ∧
      patch (some (patch (some "[a]\nold\na] end") "x" ⟨"[a", "a]"⟩ "").text) "y" ⟨"[a", "a]"⟩ "" =
        ⟨"[a\ny\na] end", true⟩ := by
  have hm : (⟨"[a", "a]"⟩ : Markers).Separable :=
    ⟨by decide, by decide, by decide, by decide, by decide⟩
  have hx : (⟨"[a", "a]"⟩ : Markers).Avoids "x" := ⟨by decide, by decide⟩
  have honce : patch (some "[a]\nold\na] end") "y" ⟨"[a", "a]"⟩ "" = ⟨"[a\ny\na] end", true⟩ := by
    decide +kernel
  obtain ⟨htext, hchanged⟩ :=
    (patch_absorbs_earlier _ hm (some "[a]\nold\na] end") "").1 "x" "y" hx
  rw [honce] at htext
  refine ⟨hm, hx, honce, outcome_eq htext ?_⟩
  exact Bool.of_not_eq_false fun hsame => absurd (hchanged.mp hsame) (by decide)

end ProjectOutline.Document
