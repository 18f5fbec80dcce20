/-!
The records of an outline: functions, and classes with their methods.
-/

namespace ProjectOutline

/-- A function or class that a source file declares. -/
inductive Declaration where
  /-- A free function or a top-level binding. -/
  | function (name : String)
  /-- A class and the methods that stand directly in its body. -/
  | classDef (name : String) (methods : List String)
deriving DecidableEq, Repr, Inhabited

namespace Declaration

def name : Declaration → String
  | function name | classDef name _ => name

def methods : Declaration → List String
  | function _ => []
  | classDef _ methods => methods

/-- The name of a class that is declared without one. -/
def unnamedClass : String := "UnnamedClass"

end Declaration

end ProjectOutline
