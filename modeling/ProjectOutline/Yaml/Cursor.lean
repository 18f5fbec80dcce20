import ProjectOutline.Yaml.Mark

/-!
Moving over the characters of a YAML text, and the character classes of the format.
-/

namespace ProjectOutline.Yaml

abbrev Input := Array Char

/-- The character some places ahead of a mark; nothing at the end. -/
def Input.ahead (s : Input) (m : Mark) (k : Nat) : Option Char := s[m.index + k]?

def isBreak (c : Char) : Bool :=
  c == '\n' || c == '\r' || c == '\u0085' || c == '\u2028' || c == '\u2029'

def isSpace (c : Char) : Bool := c == ' ' || c == '\t'

def isWordChar (c : Char) : Bool := c.isAlphanum || c == '_' || c == '-'

def breaksOrEnds : Option Char → Bool
  | none => true
  | some c => isBreak c

def blankOrEnds : Option Char → Bool
  | none => true
  | some c => isSpace c || isBreak c

def holds (p : Char → Bool) : Option Char → Bool
  | none => false
  | some c => p c

def Mark.next (m : Mark) : Mark := ⟨m.index + 1, m.line, m.column + 1⟩

def Mark.advance (m : Mark) (n : Nat) : Mark := ⟨m.index + n, m.line, m.column + n⟩

/-- The place behind a line end, and the text it stands for: carriage returns and next-line
characters become a line feed, the two Unicode separators stay. -/
def readBreak (s : Input) (m : Mark) : List Char × Mark :=
  match s.ahead m 0, s.ahead m 1 with
  | some '\r', some '\n' => (['\n'], ⟨m.index + 2, m.line + 1, 0⟩)
  | some c, _ =>
    if isBreak c then
      ([if c == '\u2028' || c == '\u2029' then c else '\n'], ⟨m.index + 1, m.line + 1, 0⟩)
    else ([], m)
  | none, _ => ([], m)

/-- The characters of a class from a place on, and the place behind them. -/
def readWhile (p : Char → Bool) (s : Input) : Nat → Mark → List Char × Mark
  | 0, m => ([], m)
  | fuel + 1, m =>
    match s.ahead m 0 with
    | some c =>
      if p c && !isBreak c then
        let (cs, stop) := readWhile p s fuel m.next
        (c :: cs, stop)
      else ([], m)
    | none => ([], m)

/-- The run of characters of a class on a line. -/
def Input.run (p : Char → Bool) (s : Input) (m : Mark) : List Char × Mark :=
  readWhile p s (s.size - m.index) m

def Input.pastSpaces (s : Input) (m : Mark) : Mark := (s.run isSpace m).2

def Input.pastComment (s : Input) (m : Mark) : Mark :=
  if s.ahead m 0 == some '#' then (s.run (fun _ => true) m).2 else m

/-- Whether three characters and a blank mark the start or end of a document at a place. -/
def Input.marksDocument (s : Input) (c : Char) (m : Mark) : Bool :=
  m.column == 0 && s.ahead m 0 == some c && s.ahead m 1 == some c && s.ahead m 2 == some c &&
    blankOrEnds (s.ahead m 3)

def Input.atDocumentMark (s : Input) (m : Mark) : Bool :=
  s.marksDocument '-' m || s.marksDocument '.' m

end ProjectOutline.Yaml
