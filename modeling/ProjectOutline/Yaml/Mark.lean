/-!
Places in a YAML text and the faults that reading it can find there.
-/

namespace ProjectOutline.Yaml

/-- A place in a text: how many characters, lines and columns stand before it. -/
structure Mark where
  index : Nat
  line : Nat
  column : Nat
deriving DecidableEq, Repr, Inhabited

def Mark.origin : Mark := ⟨0, 0, 0⟩

def Mark.isOrigin (m : Mark) : Bool := m.line = 0 && m.column = 0

/-- A place in words, counted from one. -/
def Mark.words (m : Mark) : String :=
  "line " ++ toString (m.line + 1) ++ " column " ++ toString (m.column + 1)

/-- A fault of the text itself. -/
structure Fault where
  problem : String
  mark : Mark
  /-- Bytes before the fault, where no place is known. -/
  offset : Nat
  /-- What was being read, and where that began. -/
  context : Option (String × Mark)
deriving DecidableEq, Repr

namespace Fault

def within (what : String) (began : Mark) (problem : String) (mark : Mark) : Fault :=
  ⟨problem, mark, 0, some (what, began)⟩

def plain (problem : String) (mark : Mark) : Fault := ⟨problem, mark, 0, none⟩

/-- The text of a fault. The start of the text is never named as a place. -/
def message (f : Fault) : String :=
  f.problem ++
    (if !f.mark.isOrigin then " at " ++ f.mark.words
      else if f.offset ≠ 0 then " at position " ++ toString f.offset
      else "") ++
    match f.context with
    | none => ""
    | some (what, began) =>
      ", " ++ what ++
        if !began.isOrigin && (began.line ≠ f.mark.line || began.column ≠ f.mark.column) then
          " at " ++ began.words
        else ""

end Fault

end ProjectOutline.Yaml
