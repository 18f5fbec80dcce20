import Mathlib.Data.List.DropRight
import ProjectOutline.Text.Blank

/-!
# Trimmed texts

A trimmed text has no blank at either end (`trimmed_trim`), and nothing is left of a text exactly if
it is blank from end to end (`trim_eq_empty_iff`).
-/

namespace ProjectOutline.Text

/-- A text with something in it and no blank at either end. -/
structure Trimmed (s : String) : Prop where
  ne : s ≠ ""
  first : ∀ c ∈ s.toList.head?, isBlank c = false
  last : ∀ c ∈ s.toList.getLast?, isBlank c = false

theorem toList_trim (s : String) :
    (trim s).toList = (s.toList.dropWhile isBlank).rdropWhile isBlank := by
  rw [trim, String.toList_ofList]
  rfl

theorem head_dropWhile {cs rest : List Char} {c : Char} (h : cs.dropWhile isBlank = c :: rest) :
    isBlank c = false := by
  have hhead := List.head?_dropWhile_not isBlank cs
  rw [h] at hhead
  exact hhead

theorem trim_eq_empty_iff {s : String} : trim s = "" ↔ ∀ c ∈ s.toList, isBlank c = true := by
  rw [← String.toList_eq_nil_iff, toList_trim, List.rdropWhile_eq_nil_iff,
    ← List.dropWhile_eq_nil_iff, List.dropWhile_idempotent, List.dropWhile_eq_nil_iff]

theorem trimmed_trim {s : String} (h : trim s ≠ "") : Trimmed (trim s) := by
  have hne : (s.toList.dropWhile isBlank).rdropWhile isBlank ≠ [] := by
    rwa [← toList_trim, ne_eq, String.toList_eq_nil_iff]
  refine ⟨h, ?_, ?_⟩
  · intro c hc
    -- What is cut off behind leaves the first character where it is.
    rw [toList_trim] at hc
    obtain ⟨tail, htail⟩ := List.head?_eq_some_iff.mp hc
    obtain ⟨back, hback⟩ := List.rdropWhile_prefix isBlank (s.toList.dropWhile isBlank)
    rw [htail] at hback
    exact head_dropWhile hback.symm
  · intro c hc
    rw [toList_trim, List.getLast?_eq_some_getLast hne, Option.mem_some_iff] at hc
    rw [← hc]
    exact Bool.eq_false_iff.mpr (List.rdropWhile_last_not isBlank _ hne)

end ProjectOutline.Text
