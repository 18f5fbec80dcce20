import ProjectOutline.Text.Blank
import ProjectOutline.Text.Search

/-!
# Pieces between separators

`splitChars` cuts a text at every separator and nowhere else: a separator between two texts divides
their pieces (`splitChars_append_separator`), a text without one is a single piece, and no piece
holds one. So pieces that are joined by separators are found again (`splitChars_intercalate`).
`after?` takes off the text that it is given and no other (`after?_eq_some_iff`).
-/

namespace ProjectOutline.Text

variable {separator : Char}

theorem splitChars_append_separator (front back : List Char) :
    splitChars separator (front ++ separator :: back) =
      splitChars separator front ++ splitChars separator back := by
  induction front with
  | nil => simp [splitChars]
  | cons c rest ih =>
    rw [List.cons_append, splitChars, splitChars, ih]
    split
    · rfl
    · cases hpieces : splitChars separator rest with
      | nil => exact absurd hpieces (splitChars_ne_nil separator rest)
      | cons piece pieces => rfl

theorem splitChars_of_not_mem {cs : List Char} (h : separator ∉ cs) :
    splitChars separator cs = [cs] := by
  induction cs with
  | nil => rfl
  | cons c rest ih =>
    rw [List.mem_cons, not_or] at h
    rw [splitChars, if_neg (Ne.symm h.1), ih h.2]

theorem not_mem_of_mem_splitChars {cs piece : List Char} (h : piece ∈ splitChars separator cs) :
    separator ∉ piece := by
  induction cs generalizing piece with
  | nil =>
    rw [splitChars, List.mem_singleton] at h
    simp [h]
  | cons c rest ih =>
    rw [splitChars] at h
    split at h
    · rcases List.mem_cons.mp h with rfl | hrest
      · exact List.not_mem_nil
      · exact ih hrest
    · next hc =>
      cases hpieces : splitChars separator rest with
      | nil => exact absurd hpieces (splitChars_ne_nil separator rest)
      | cons first pieces =>
        rw [hpieces] at h ih
        rcases List.mem_cons.mp h with rfl | hrest
        · rw [List.mem_cons, not_or]
          exact ⟨Ne.symm hc, ih List.mem_cons_self⟩
        · exact ih (List.mem_cons_of_mem _ hrest)

/-- A piece has its characters from the text. -/
theorem mem_of_mem_splitChars {c : Char} {cs piece : List Char}
    (h : piece ∈ splitChars separator cs) (hc : c ∈ piece) : c ∈ cs := by
  induction cs generalizing piece with
  | nil =>
    rw [splitChars, List.mem_singleton] at h
    rwa [h] at hc
  | cons first rest ih =>
    rw [splitChars] at h
    split at h
    · rcases List.mem_cons.mp h with rfl | hrest
      · cases hc
      · exact List.mem_cons_of_mem _ (ih hrest hc)
    · cases hpieces : splitChars separator rest with
      | nil => exact absurd hpieces (splitChars_ne_nil separator rest)
      | cons next pieces =>
        rw [hpieces] at h ih
        rcases List.mem_cons.mp h with rfl | hrest
        · rcases List.mem_cons.mp hc with rfl | hc
          · exact List.mem_cons_self
          · exact List.mem_cons_of_mem _ (ih List.mem_cons_self hc)
        · exact List.mem_cons_of_mem _ (ih (List.mem_cons_of_mem _ hrest) hc)

theorem mem_of_mem_split {c : Char} {s piece : String}
    (h : piece ∈ split separator s) (hc : c ∈ piece.toList) : c ∈ s.toList := by
  obtain ⟨chars, hchars, rfl⟩ := List.mem_map.mp h
  rw [String.toList_ofList] at hc
  exact mem_of_mem_splitChars hchars hc

/-- Pieces without a separator are found again when they are joined by separators. -/
theorem splitChars_intercalate {pieces : List (List Char)} (hne : pieces ≠ [])
    (h : ∀ piece ∈ pieces, separator ∉ piece) :
    splitChars separator ([separator].intercalate pieces) = pieces := by
  induction pieces with
  | nil => exact absurd rfl hne
  | cons piece rest ih =>
    have hpiece := splitChars_of_not_mem (h piece List.mem_cons_self)
    cases rest with
    | nil =>
      rw [List.intercalate_singleton]
      exact hpiece
    | cons next others =>
      rw [List.intercalate_cons_cons, List.append_assoc, List.singleton_append,
        splitChars_append_separator, hpiece,
        ih (List.cons_ne_nil _ _) fun p hp => h p (List.mem_cons_of_mem _ hp)]
      rfl

/-- Lines that are each ended by a separator, and the empty piece behind the last. -/
theorem splitChars_lines {lines : List (List Char)} (h : ∀ line ∈ lines, separator ∉ line) :
    splitChars separator (lines.flatMap (· ++ [separator])) = lines ++ [[]] := by
  induction lines with
  | nil => rfl
  | cons line rest ih =>
    rw [List.flatMap_cons, List.append_assoc, List.singleton_append, splitChars_append_separator,
      splitChars_of_not_mem (h line List.mem_cons_self),
      ih fun l hl => h l (List.mem_cons_of_mem _ hl)]
    rfl

theorem split_append_slash (front back : String) :
    split '/' (front ++ ("/" ++ back)) = split '/' front ++ split '/' back := by
  have hslash : "/".toList = ['/'] := rfl
  rw [split, String.toList_append, String.toList_append, hslash, List.singleton_append,
    splitChars_append_separator, List.map_append]
  rfl

theorem after?_eq_some_iff {lead s rest : String} :
    after? lead s = some rest ↔ s = lead ++ rest := by
  constructor
  · intro h
    rw [after?] at h
    split at h
    · next hlead =>
      obtain ⟨back, hback⟩ := List.isPrefixOf_iff_prefix.mp hlead
      cases h
      apply String.toList_injective
      rw [String.toList_append, String.toList_ofList, ← hback, List.drop_left]
    · cases h
  · rintro rfl
    simp [after?]

end ProjectOutline.Text
