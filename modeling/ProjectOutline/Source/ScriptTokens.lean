import ProjectOutline.Source.Scan

/-!
Tokens of JavaScript and TypeScript: names, numbers, strings, regular expressions, comments, and the
places where a line end stands for a semicolon.
-/

namespace ProjectOutline.Source.Script

open Peg (Source Context)

/-- Characters that separate tokens without being tokens. -/
def isGap (c : Char) : Bool :=
  Text.isBlank c || c == '\uFEFF' || c == '\u2060' || c == '\u200B'

/-- Characters that never belong to a name. -/
def isMark (c : Char) : Bool :=
  c.toNat < 0x20 || isGap c ||
    [':', ';', '\x60', '"', '\x27', '@', '#', '.', ',', '|', '^', '&', '<', '=', '>', '+', '-', '*',
      '/', '\\', '%', '?', '!', '~', '(', ')', '[', ']', '\x7b', '\x7d'].contains c

def isNamePart (c : Char) : Bool := !isMark c

def isNameStart (c : Char) : Bool := !isMark c && !c.isDigit

def nameEscape : Scan := fun s i =>
  if look s i == '\\' && look s (i + 1) == 'u' then
    if look s (i + 2) == '\x7b' then
      let stop := runWhile isHex s (i + 3)
      if i + 3 < stop && look s stop == '\x7d' then some (stop + 1) else none
    else if isHex (look s (i + 2)) && isHex (look s (i + 3)) && isHex (look s (i + 4)) &&
        isHex (look s (i + 5)) then some (i + 6)
    else none
  else none

def nameRest : Scan := fun s i =>
  follow (fun i =>
    if i < s.size && isNamePart (look s i) then .go (i + 1)
    else match nameEscape s i with
      | some stop => .go stop
      | none => .finish i) s i

def name : Scan := fun s i =>
  if i < s.size && isNameStart (look s i) then nameRest s (i + 1)
  else (nameEscape s i).bind (nameRest s)

def reserved : List String :=
  ["break", "case", "catch", "class", "const", "continue", "debugger", "default", "delete", "do",
    "else", "enum", "export", "extends", "false", "finally", "for", "function", "if", "import",
    "in", "instanceof", "new", "null", "return", "super", "switch", "this", "throw", "true", "try",
    "typeof", "undefined", "var", "void", "while", "with", "yield", "await"]

def identifier : Scan := fun s i =>
  (name s i).bind fun stop =>
    if reserved.any fun word => standsAt s word.toList i && i + word.length == stop then none
    else some stop

def word (text : String) : Scan := fun s i =>
  (name s i).bind fun stop =>
    if standsAt s text.toList i && i + text.length == stop then some stop else none

def privateName : Scan := fun s i =>
  if look s i == '#' then name s (i + 1) else none

def digits (s : Source) (i : Nat) : Nat :=
  runWhile (fun c => c.isDigit || c == '_') s i

/-- The place behind an exponent, if one stands here. -/
def exponent (s : Source) (i : Nat) : Nat :=
  if look s i == 'e' || look s i == 'E' then
    let j := if look s (i + 1) == '+' || look s (i + 1) == '-' then i + 2 else i + 1
    if (look s j).isDigit then digits s j else i
  else i

def number : Scan := fun s i =>
  let c := look s i
  let d := look s (i + 1)
  if c == '0' && ['x', 'X', 'o', 'O', 'b', 'B'].contains d then
    let stop := runWhile (fun c => isHex c || c == '_') s (i + 2)
    if i + 2 < stop then some (if look s stop == 'n' then stop + 1 else stop) else none
  else if c.isDigit then
    let whole := digits s i
    if look s whole == 'n' then some (whole + 1)
    else
      let fraction := if look s whole == '.' then digits s (whole + 1) else whole
      some (exponent s fraction)
  else if c == '.' && d.isDigit then some (exponent s (digits s (i + 1)))
  else none

/-- Scans the inside of a string up to its closing quote or the next escape. -/
def stringFragment (quote : Char) : Scan := fun s i =>
  some1 (fun c => c != quote && c != '\\' && c != '\n') s i

def escape : Scan := fun s i =>
  if look s i == '\\' && i + 1 < s.size then
    let c := look s (i + 1)
    if c == 'u' && look s (i + 2) == '\x7b' then
      let stop := runWhile isHex s (i + 3)
      if look s stop == '\x7d' then some (stop + 1) else some (i + 2)
    else if c == 'u' then some (Nat.min (runWhile isHex s (i + 2)) (i + 6))
    else if c == 'x' then some (Nat.min (runWhile isHex s (i + 2)) (i + 4))
    else if c == '\r' && look s (i + 2) == '\n' then some (i + 3)
    else some (i + 2)
  else none

/-- Scans the text of a template up to an escape, a substitution or its end. -/
def templateFragment : Scan := fun s i =>
  follow (fun j =>
    if s.size ≤ j then .stuck
    else if look s j == '\x60' || look s j == '\\' ||
        (look s j == '$' && look s (j + 1) == '\x7b') then
      if i < j then .finish j else .stuck
    else .go (j + 1)) s i

/-- Scans the pattern of a regular expression, up to the slash that ends it. -/
def regexPattern : Scan := fun s i =>
  let rec go (fuel : Nat) (inClass : Bool) (j : Nat) : Option Nat :=
    match fuel with
    | 0 => none
    | fuel + 1 =>
      if s.size ≤ j then none
      else
        let c := look s j
        if c == '\n' then none
        else if c == '\\' then go fuel inClass (j + 2)
        else if c == '[' then go fuel true (j + 1)
        else if c == ']' then go fuel false (j + 1)
        else if c == '/' && !inClass then (if i < j then some j else none)
        else go fuel inClass (j + 1)
  if look s i == '*' || look s i == '/' then none else go (s.size + 1) false i

/-- Scans the text of an element up to a tag or an expression. -/
def markupText : Scan :=
  some1 fun c => c != '\x7b' && c != '\x7d' && c != '<' && c != '>'

def markupName : Scan := fun s i =>
  (name s i).map fun _ => runWhile (fun c => isNamePart c || c == '-') s i

def attributeText (quote : Char) : Scan :=
  some1 fun c => c != quote

def comment : Scan := fun s i =>
  if standsAt s ['/', '/'] i || standsAt s ['<', '!', '-', '-'] i then some (lineEnd s i)
  else if look s i == '/' && look s (i + 1) == '*' then
    follow (fun j =>
      if s.size ≤ j then .finish j
      else if look s j == '*' && look s (j + 1) == '/' then .finish (j + 2)
      else .go (j + 1)) s (i + 2)
  else none

/-- The comments from a place on and the place of the next token. -/
def skipFrom (s : Source) : Nat → Nat → List (Nat × Nat) × Nat
  | 0, i => ([], i)
  | fuel + 1, i =>
    let start := runWhile isGap s i
    match comment s start with
    | some stop =>
      let (others, place) := skipFrom s fuel stop
      ((start, stop) :: others, place)
    | none => ([], start)

def skip (_ : Context) (s : Source) (i : Nat) : List (Nat × Nat) × Nat :=
  skipFrom s (s.size + 1) i

def nextPlace (s : Source) (i : Nat) : Nat :=
  (skipFrom s (s.size + 1) i).2

def breaksBetween (s : Source) (i j : Nat) : Bool :=
  runWhile (fun c => c != '\n') s i < j

def sameLine (_ : Context) (s : Source) (i : Nat) : Bool :=
  !breaksBetween s i (nextPlace s i)

def atEnd (_ : Context) (s : Source) (i : Nat) : Bool :=
  s.size ≤ nextPlace s i

/-- Whether a word continues an expression, so that a line end before it ends nothing. -/
def continuesExpression (s : Source) (i : Nat) : Bool :=
  (word "in" s i).isSome || (word "instanceof" s i).isSome

/-- Characters that continue an expression from the line before. -/
def continuing : List Char :=
  ['\x60', ',', '.', ';', '*', '%', '>', '<', '=', '?', '^', '|', '&', '/', ':']

/-- Whether a semicolon may be left out here: before a closing brace, at the end, and at a line end
that no operator follows. -/
def semicolonImplied (_ : Context) (s : Source) (i : Nat) : Bool :=
  let j := nextPlace s i
  if s.size ≤ j then true
  else
    let c := look s j
    if c == '\x7d' then true
    else if !breaksBetween s i j then false
    else if continuing.contains c then false
    else if c == '+' then look s (j + 1) == '+'
    else if c == '-' then look s (j + 1) == '-'
    else if c == '!' then look s (j + 1) != '='
    else !continuesExpression s j

end ProjectOutline.Source.Script
