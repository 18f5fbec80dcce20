import ProjectOutline.JsonValue
import ProjectOutline.Yaml.Cursor
import ProjectOutline.Yaml.Meaning

/-!
Writing JSON values as YAML. Texts are written plainly where they read back as themselves, else in
quotes or, if they have several lines, as a literal block. Sequences in a mapping stand at the
column of their key.
-/

namespace ProjectOutline.Yaml

/-- What the choice of a style depends on. -/
structure TextShape where
  /-- Whether the text has line ends. -/
  multiline : Bool
  /-- Whether it can be written without quotes. -/
  plain : Bool
  singleQuoted : Bool
  /-- Whether it can be written as a literal block. -/
  block : Bool
deriving DecidableEq, Repr

def isPrintable (c : Char) : Bool :=
  let n := c.toNat
  n == 0x0A || (0x20 ≤ n && n ≤ 0x7E) || (0xA0 ≤ n && n ≤ 0xD7FF) ||
    (0xE000 ≤ n && n ≤ 0xFFFD && n ≠ 0xFEFF)

def endsWord : Option Char → Bool
  | none => true
  | some c => isSpace c || isBreak c || c == '\x00'

/-- Whether the first character of a text has a meaning of its own in front of `next`. -/
def startsIndicator (c : Char) (next : Option Char) : Bool :=
  ['#', ',', '[', ']', '\x7b', '\x7d', '&', '*', '!', '|', '>', '\x27', '"', '%', '@',
      '\x60'].contains c ||
    ((c == '?' || c == ':' || c == '-') && endsWord next)

/-- Whether a text has a colon or a number sign where it would end the text or start a comment. -/
def hasIndicator : Option Char → List Char → Bool
  | _, [] => false
  | before, c :: rest =>
    (c == ':' && endsWord rest.head?) || (c == '#' && endsWord before) || hasIndicator (some c) rest

def hasSpaceBreak : List Char → Bool
  | ' ' :: c :: rest => isBreak c || hasSpaceBreak (c :: rest)
  | _ :: rest => hasSpaceBreak rest
  | [] => false

def hasBreakSpace : List Char → Bool
  | c :: ' ' :: rest => isBreak c || hasBreakSpace (' ' :: rest)
  | _ :: rest => hasBreakSpace rest
  | [] => false

def TextShape.of (cs : List Char) : TextShape :=
  let multiline := cs.any isBreak
  let edge (c : Option Char) : Bool := holds (fun c => c == ' ' || isBreak c) c
  let marked := (cs.take 3 == ['-', '-', '-'] || cs.take 3 == ['.', '.', '.']) ||
    match cs with
    | c :: rest => startsIndicator c rest.head? || hasIndicator (some c) rest
    | [] => false
  let special := hasSpaceBreak cs || cs.any fun c => !isPrintable c
  { multiline := multiline
    plain := !(special || marked || multiline || edge cs.head? || edge cs.getLast?)
    singleQuoted := !(special || hasBreakSpace cs)
    block := !(special || cs.getLast? == some ' ') && !cs.isEmpty }

/-- Whether a text would not read back as a text without quotes. -/
def isAmbiguous (s : String) : Bool :=
  isZeroPadded s.toList || plainMeaning s ≠ .text s

/-- The style for a text. Before a colon it has to stand on one line. -/
def styleOf (isKey : Bool) (s : String) : Style :=
  let shape := TextShape.of s.toList
  let quoted : Style := if shape.singleQuoted then .singleQuoted else .doubleQuoted
  if isKey && shape.multiline then .doubleQuoted
  else if s.toList.contains '\n' then
    if shape.block && !isKey then .literal else .doubleQuoted
  else if isAmbiguous s || !shape.plain then quoted
  else .plain

def pad (n : Nat) : String := String.ofList (List.replicate n ' ')

/-- The digits of a number in base sixteen, in upper case and at least `width`. -/
def upperHex (width n : Nat) : String :=
  let digits := (Nat.toDigits 16 n).map Char.toUpper
  String.ofList (List.replicate (width - digits.length) '0' ++ digits)

def escapeChar (c : Char) : String :=
  if c == '"' then "\\\""
  else if c == '\\' then "\\\\"
  else if isPrintable c && !isBreak c then String.singleton c
  else
    match c.toNat with
    | 0x00 => "\\0"
    | 0x07 => "\\a"
    | 0x08 => "\\b"
    | 0x09 => "\\t"
    | 0x0A => "\\n"
    | 0x0B => "\\v"
    | 0x0C => "\\f"
    | 0x0D => "\\r"
    | 0x1B => "\\e"
    | 0x85 => "\\N"
    | 0x2028 => "\\L"
    | 0x2029 => "\\P"
    | n =>
      if n ≤ 0xFF then "\\x" ++ upperHex 2 n
      else if n ≤ 0xFFFF then "\\u" ++ upperHex 4 n
      else "\\U" ++ upperHex 8 n

def printDouble (cs : List Char) : String :=
  "\"" ++ String.join (cs.map escapeChar) ++ "\""

/-- The inside of a text in single quotes. Behind a line end the text goes on at the indentation. -/
def singleInside (indent : Nat) : Bool → List Char → String
  | broken, [] => if broken then pad indent else ""
  | broken, c :: rest =>
    if isBreak c then String.singleton c ++ singleInside indent true rest
    else
      (if broken then pad indent else "") ++
        (if c == '\x27' then "\x27\x27" else String.singleton c) ++ singleInside indent false rest

def literalLines (indent : Nat) : Bool → List Char → String
  | _, [] => ""
  | broken, c :: rest =>
    if isBreak c then String.singleton c ++ literalLines indent true rest
    else (if broken then pad indent else "") ++ String.singleton c ++ literalLines indent false rest

/-- The header of a literal block: whether its indentation has to be told, and what happens to the
line ends at its end. -/
def literalHeader (cs : List Char) : String :=
  let hint := if holds (fun c => c == ' ' || isBreak c) cs.head? then "2" else ""
  let chomp :=
    match cs.reverse with
    | last :: before :: _ => if !isBreak last then "-" else if isBreak before then "+" else ""
    | [last] => if isBreak last then "+" else "-"
    | [] => "-"
  "|" ++ hint ++ chomp

/-- A part of the output, and whether a line ends with it. -/
structure Printed where
  text : String
  ended : Bool
deriving DecidableEq, Repr

namespace Printed

def inline (text : String) : Printed := ⟨text, false⟩

def behind (text : String) (p : Printed) : Printed := { p with text := text ++ p.text }

/-- Puts a part on a new line behind another. -/
def below (indent : Nat) (first second : Printed) : Printed :=
  let lineEnd := if first.ended then "" else "\n"
  { second with text := first.text ++ lineEnd ++ pad indent ++ second.text }

end Printed

def printText (indent : Nat) (isKey : Bool) (s : String) : Printed :=
  let cs := s.toList
  match styleOf isKey s with
  | .plain => .inline s
  | .singleQuoted => .inline ("\x27" ++ singleInside indent false cs ++ "\x27")
  | .doubleQuoted => .inline (printDouble cs)
  | .literal | .folded =>
    ⟨literalHeader cs ++ "\n" ++ literalLines indent true cs, holds isBreak cs.getLast?⟩

def isSimpleKey (key : String) : Bool :=
  !(TextShape.of key.toList).multiline && key.utf8ByteSize ≤ 128

mutual

/-- A value in a block at an indentation. A compact value starts on the line of the sign before it;
else collections start on a new line. -/
def printValue (indent : Nat) (compact : Bool) : JsonValue → Printed
  | .null => .inline " null"
  | .bool value => .inline (if value then " true" else " false")
  | .int value => .inline (" " ++ toString value)
  | .decimal number => .inline (" " ++ number.render)
  | .str text => .behind " " (printText (indent + 2) false text)
  | .arr [] => .inline " []"
  | .obj [] => .inline " \x7b\x7d"
  | .arr (item :: rest) =>
    let inner := if compact then indent + 2 else indent
    .behind (if compact then " " else "\n" ++ pad inner)
      (printItems inner (.behind "-" (printValue inner true item)) rest)
  | .obj ((key, value) :: rest) =>
    let inner := indent + 2
    .behind (if compact then " " else "\n" ++ pad inner)
      (printMembers inner (printMember inner key value) rest)

def printItems (indent : Nat) (before : Printed) : List JsonValue → Printed
  | [] => before
  | item :: rest =>
    printItems indent (.below indent before (.behind "-" (printValue indent true item))) rest

def printMember (indent : Nat) (key : String) (value : JsonValue) : Printed :=
  if isSimpleKey key then
    .behind ((printText indent true key).text ++ ":") (printValue indent false value)
  else
    .below indent (.behind "? " (printText (indent + 2) false key))
      (.behind ":" (printValue indent true value))

def printMembers (indent : Nat) (before : Printed) : List (String × JsonValue) → Printed
  | [] => before
  | (key, value) :: rest =>
    printMembers indent (.below indent before (printMember indent key value)) rest

end

def printDocument : List (String × JsonValue) → String
  | [] => "\x7b\x7d\n"
  | (key, value) :: rest =>
    let p := printMembers 0 (printMember 0 key value) rest
    p.text ++ if p.ended then "" else "\n"

end ProjectOutline.Yaml
