import ProjectOutline.Source.Scan

/-!
Tokens of Python: names, numbers, strings, comments, and the line structure. Outside brackets a line
end ends a statement unless a backslash stands before it; the column of a line is counted with eight
for a tab.
-/

namespace ProjectOutline.Source.Python

open Peg (Source Context)

def isNamePart (c : Char) : Bool :=
  c.isAlphanum || c == '_' || (0x80 ≤ c.toNat && !Text.isBlank c && c != '\uFEFF')

def isNameStart (c : Char) : Bool :=
  isNamePart c && !c.isDigit

def name : Scan := fun s i =>
  if i < s.size && isNameStart (look s i) then some (runWhile isNamePart s i) else none

def reserved : List String :=
  ["and", "as", "assert", "break", "class", "continue", "def", "del", "elif", "else", "except",
    "finally", "for", "from", "global", "if", "import", "in", "is", "lambda", "nonlocal", "not",
    "or", "pass", "raise", "return", "try", "while", "with", "yield", "True", "False", "None"]

def word (text : String) : Scan := fun s i =>
  (name s i).bind fun stop =>
    if standsAt s text.toList i && i + text.length == stop then some stop else none

def identifier : Scan := fun s i =>
  (name s i).bind fun stop =>
    if reserved.any fun text => standsAt s text.toList i && i + text.length == stop then none
    else some stop

def digits (s : Source) (i : Nat) : Nat :=
  runWhile (fun c => c.isDigit || c == '_') s i

/-- The place behind an exponent, if one stands here. -/
def exponent (s : Source) (i : Nat) : Nat :=
  if look s i == 'e' || look s i == 'E' then
    let j := if look s (i + 1) == '+' || look s (i + 1) == '-' then i + 2 else i + 1
    if (look s j).isDigit then digits s j else i
  else i

/-- The place behind the letter that may follow a number. -/
def numberMark (s : Source) (i : Nat) : Nat :=
  if ['j', 'J', 'l', 'L'].contains (look s i) then i + 1 else i

def number : Scan := fun s i =>
  let c := look s i
  if c == '0' && ['x', 'X', 'o', 'O', 'b', 'B'].contains (look s (i + 1)) then
    let stop := runWhile (fun c => isHex c || c == '_') s (i + 2)
    if i + 2 < stop then some (numberMark s stop) else none
  else if c.isDigit then
    let whole := digits s i
    let fraction := if look s whole == '.' then digits s (whole + 1) else whole
    some (numberMark s (exponent s fraction))
  else if c == '.' && (look s (i + 1)).isDigit then
    some (numberMark s (exponent s (digits s (i + 1))))
  else none

/-- Whether a number that was scanned is a whole one. -/
def isWhole (s : Source) (i stop : Nat) : Bool :=
  !(s.extract i stop).any (fun c => c == '.' || c == 'j' || c == 'J')

structure Opening where
  quote : Char
  triple : Bool
  /-- Whether braces hold expressions. -/
  formatted : Bool
deriving DecidableEq, Repr

/-- The quote that opens a string and the place behind it. -/
def opening? (s : Source) (i : Nat) : Option (Opening × Nat) :=
  let start := runWhile (fun c => ['r', 'R', 'b', 'B', 'u', 'U', 'f', 'F'].contains c) s i
  let c := look s start
  if start ≤ i + 2 && (c == '"' || c == '\x27') then
    let formatted := (s.extract i start).any (fun c => c == 'f' || c == 'F')
    if look s (start + 1) == c && look s (start + 2) == c then
      some (⟨c, true, formatted⟩, start + 3)
    else some (⟨c, false, formatted⟩, start + 1)
  else none

/-- Whether the closing quotes of a string stand at a place. -/
def closesAt (o : Opening) (s : Source) (i : Nat) : Bool :=
  look s i == o.quote && (!o.triple || (look s (i + 1) == o.quote && look s (i + 2) == o.quote))

/-- The place behind a quoted text inside an expression in braces. -/
def skipQuoted (quote : Char) (s : Source) (i : Nat) : Option Nat :=
  follow (fun j =>
    if s.size ≤ j || look s j == '\n' then .stuck
    else if look s j == '\\' then .go (j + 2)
    else if look s j == quote then .finish (j + 1)
    else .go (j + 1)) s i

/-- The place of the quotes that close a string opened before `i`. `depth` counts open braces. -/
def bodyEnd (o : Opening) (s : Source) : Nat → Nat → Nat → Option Nat
  | 0, _, _ => none
  | fuel + 1, depth, i =>
    if s.size ≤ i then none
    else
      let c := look s i
      if depth = 0 then
        if closesAt o s i then some i
        else if c == '\\' then bodyEnd o s fuel 0 (i + 2)
        else if c == '\n' && !o.triple then none
        else if o.formatted && c == '\x7b' then
          if look s (i + 1) == '\x7b' then bodyEnd o s fuel 0 (i + 2)
          else bodyEnd o s fuel 1 (i + 1)
        else bodyEnd o s fuel 0 (i + 1)
      else if c == '\x7b' then bodyEnd o s fuel (depth + 1) (i + 1)
      else if c == '\x7d' then bodyEnd o s fuel (depth - 1) (i + 1)
      else if c == '"' || c == '\x27' then
        match skipQuoted c s (i + 1) with
        | some stop => bodyEnd o s fuel depth stop
        | none => if closesAt o s i then some i else none
      else bodyEnd o s fuel depth (i + 1)

def Opening.closing (o : Opening) : String :=
  String.ofList (List.replicate (if o.triple then 3 else 1) o.quote)

/-- Scans the letters and quotes that open a string in the way of `o`. -/
def stringStart (o : Opening) : Scan := fun s i =>
  (opening? s i).bind fun (found, stop) => if found = o then some stop else none

/-- Scans what stands between the quotes of a string. -/
def stringContent (o : Opening) : Scan := fun s i =>
  (bodyEnd o s (s.size + 1) 0 i).bind fun stop => if i < stop then some stop else none

/-- Characters that separate tokens on a line. -/
def isGap (c : Char) : Bool :=
  c != '\n' && (Text.isBlank c || c == '\uFEFF' || c == '\u2060' || c == '\u200B')

/-- The place behind a backslash that joins two lines, if one stands here. -/
def lineJoin? (s : Source) (i : Nat) : Option Nat :=
  if look s i == '\\' then
    if look s (i + 1) == '\n' then some (i + 2)
    else if look s (i + 1) == '\r' && look s (i + 2) == '\n' then some (i + 3)
    else none
  else none

/-- The comments from a place on and the place of the next token or line end. -/
def skipFrom (joined : Bool) (s : Source) : Nat → Nat → List (Nat × Nat) × Nat
  | 0, i => ([], i)
  | fuel + 1, i =>
    let start := runWhile (fun c => isGap c || (joined && c == '\n')) s i
    match lineJoin? s start with
    | some next => skipFrom joined s fuel next
    | none =>
      if look s start == '#' then
        let stop := runWhile (fun c => c != '\n' && c != '\r') s start
        let (others, place) := skipFrom joined s fuel stop
        ((start, stop) :: others, place)
      else ([], start)

def skip (c : Context) (s : Source) (i : Nat) : List (Nat × Nat) × Nat :=
  skipFrom c.joined s (s.size + 1) i

/-- The column of a place in its line, counting eight for a tab. -/
def column (s : Source) (i : Nat) : Nat :=
  let start := lineStart s i
  (s.extract start i).foldl
    (fun n c => if c == '\t' then n + 8 else if c == '\x0c' then 0 else n + 1) 0
where
  /-- The place at which the line of a place starts. -/
  lineStart (s : Source) : Nat → Nat
    | 0 => 0
    | i + 1 => if look s i == '\n' then i + 1 else lineStart s i

/-- Passes over the end of a statement's line and the empty lines behind it. -/
def newline (_ : Context) (s : Source) (i : Nat) : Option (List (Nat × Nat) × Nat) :=
  let (_, stop) := skipFrom false s (s.size + 1) i
  if s.size ≤ stop || look s stop == '\n' then some (skipFrom true s (s.size + 1) i) else none

/-- Passes over the empty lines before the first statement. -/
def blankLines (_ : Context) (s : Source) (i : Nat) : Option (List (Nat × Nat) × Nat) :=
  some (skipFrom true s (s.size + 1) i)

def inBlock (c : Context) (s : Source) (i : Nat) : Bool :=
  i < s.size && c.indent ≤ column s i

def deeper (c : Context) (s : Source) (i : Nat) : Bool :=
  i < s.size && c.indent < column s i

def endsHere (_ : Context) (s : Source) (i : Nat) : Bool :=
  let (_, stop) := skipFrom false s (s.size + 1) i
  s.size ≤ stop || look s stop == '\n' || look s stop == ';'

end ProjectOutline.Source.Python
