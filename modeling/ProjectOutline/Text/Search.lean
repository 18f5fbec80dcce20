/-!
Positions of one text inside another, counted in characters: the first and the last place at which a
pattern stands, and the pieces between separators.
-/

namespace ProjectOutline.Text

def firstAt (pattern : List Char) : List Char → Option Nat
  | [] => if pattern.isEmpty then some 0 else none
  | c :: rest =>
    if pattern.isPrefixOf (c :: rest) then some 0 else (firstAt pattern rest).map (· + 1)

def lastAt (pattern : List Char) : List Char → Option Nat
  | [] => if pattern.isEmpty then some 0 else none
  | c :: rest =>
    match lastAt pattern rest with
    | some n => some (n + 1)
    | none => if pattern.isPrefixOf (c :: rest) then some 0 else none

/-- The pieces between the separators; `n` separators give `n + 1` pieces. -/
def splitChars (separator : Char) : List Char → List (List Char)
  | [] => [[]]
  | c :: rest =>
    if c = separator then [] :: splitChars separator rest
    else
      match splitChars separator rest with
      | [] => [[c]]
      | piece :: pieces => (c :: piece) :: pieces

def split (separator : Char) (s : String) : List String :=
  (splitChars separator s.toList).map String.ofList

/-- What follows `lead` in `s`, if `s` starts with it. -/
def after? (lead s : String) : Option String :=
  if lead.toList.isPrefixOf s.toList then some (String.ofList (s.toList.drop lead.toList.length))
  else none

def endsIn (tail s : String) : Bool :=
  tail.toList.isSuffixOf s.toList

theorem splitChars_ne_nil (separator : Char) (cs : List Char) : splitChars separator cs ≠ [] := by
  induction cs with
  | nil => simp [splitChars]
  | cons c rest ih =>
    unfold splitChars
    split
    · simp
    · split <;> simp

/-- Putting the separator back between the pieces gives the text back. -/
theorem intercalate_splitChars (separator : Char) (cs : List Char) :
    [separator].intercalate (splitChars separator cs) = cs := by
  induction cs with
  | nil => simp [splitChars, List.intercalate]
  | cons c rest ih =>
    unfold splitChars
    split
    · next h =>
      cases hs : splitChars separator rest with
      | nil => exact absurd hs (splitChars_ne_nil separator rest)
      | cons piece pieces =>
        rw [hs] at ih
        simp [List.intercalate, List.intersperse, h] at ih ⊢
        exact ih
    · cases hs : splitChars separator rest with
      | nil => exact absurd hs (splitChars_ne_nil separator rest)
      | cons piece pieces =>
        rw [hs] at ih
        cases pieces with
        | nil => simp_all [List.intercalate, List.intersperse]
        | cons next others => simp_all [List.intercalate, List.intersperse]

end ProjectOutline.Text
