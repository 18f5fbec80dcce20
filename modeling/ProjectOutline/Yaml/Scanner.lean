import ProjectOutline.Yaml.Scalar
import ProjectOutline.Yaml.Token

/-!
Cutting a YAML text into tokens. Tokens are cut only as they are asked for, since a fault of the
text counts only once the reader gets there. A mapping key is known only by the colon behind it, so
the scanner remembers where keys may have started and puts their tokens in afterwards.
-/

namespace ProjectOutline.Yaml

/-- A place where a mapping key may have started. -/
structure KeyCandidate where
  possible : Bool
  /-- Whether nothing but a key can stand there. -/
  required : Bool
  /-- The number of the key's first token. -/
  token : Nat
  mark : Mark
deriving Repr, Inhabited

def KeyCandidate.none : KeyCandidate := ⟨false, false, 0, .origin⟩

/-- The state of the scanner. -/
structure Scanner where
  input : Input
  mark : Mark
  /-- Tokens that are cut and not yet taken. -/
  queue : List Token
  /-- How many tokens have been taken. -/
  taken : Nat
  /-- Columns of the open blocks around the innermost one. -/
  indents : List Int
  /-- Column of the innermost open block. -/
  indent : Int
  /-- Whether a key may start here. -/
  keyAllowed : Bool
  /-- A candidate for each open flow collection and for the blocks around, innermost first. -/
  candidates : List KeyCandidate
  flowLevel : Nat
  started : Bool

namespace Scanner

def start (input : Input) : Scanner where
  input := input
  mark := .origin
  queue := []
  taken := 0
  indents := []
  indent := -1
  keyAllowed := false
  candidates := []
  flowLevel := 0
  started := false

def ahead (s : Scanner) (k : Nat) : Option Char := s.input.ahead s.mark k

def push (s : Scanner) (kind : TokenKind) (start stop : Mark) : Scanner :=
  { s with queue := s.queue ++ [⟨kind, start, stop⟩] }

def insert (s : Scanner) (number : Nat) (token : Token) : Scanner :=
  let at' := number - s.taken
  { s with queue := s.queue.take at' ++ [token] ++ s.queue.drop at' }

def fault (s : Scanner) (what : String) (began : Mark) (problem : String) : Fault :=
  .within what began problem s.mark

def keyFault (s : Scanner) (c : KeyCandidate) : Fault :=
  s.fault "while scanning a simple key" c.mark "could not find expected ':'"

/-- Gives up the candidates that the scanner has left behind: a key stands on one line and has at
most 1024 characters. -/
def dropStale (s : Scanner) : Except Fault Scanner := do
  let stale (c : KeyCandidate) : Bool :=
    c.possible && (c.mark.line < s.mark.line || c.mark.index + 1024 < s.mark.index)
  match s.candidates.reverse.find? fun c => stale c && c.required with
  | some c => .error (s.keyFault c)
  | none =>
    let give (c : KeyCandidate) := if stale c then { c with possible := false } else c
    .ok { s with candidates := s.candidates.map give }

def dropCandidate (s : Scanner) : Except Fault Scanner :=
  match s.candidates with
  | [] => .ok s
  | c :: rest =>
    if c.possible && c.required then .error (s.keyFault c)
    else .ok { s with candidates := { c with possible := false } :: rest }

/-- Remembers that a key may start here. -/
def saveCandidate (s : Scanner) : Except Fault Scanner := do
  if s.keyAllowed then
    let required := s.flowLevel == 0 && s.indent == (s.mark.column : Int)
    let c : KeyCandidate := ⟨true, required, s.taken + s.queue.length, s.mark⟩
    let s ← s.dropCandidate
    .ok { s with candidates := c :: s.candidates.drop 1 }
  else .ok s

/-- Opens a block at a column that is deeper than the open one. -/
def roll (s : Scanner) (column : Nat) (number : Option Nat) (kind : TokenKind) (mark : Mark) :
    Scanner :=
  if s.flowLevel ≠ 0 || (column : Int) ≤ s.indent then s
  else
    let s := { s with indents := s.indent :: s.indents, indent := column }
    match number with
    | none => s.push kind mark mark
    | some n => s.insert n ⟨kind, mark, mark⟩

/-- Closes the blocks that are deeper than a column. -/
def unrollFrom (column : Int) : List Int → Scanner → Scanner
  | [], s => s
  | outer :: rest, s =>
    if column < s.indent then
      unrollFrom column rest
        { s.push .blockEnd s.mark s.mark with indent := outer, indents := rest }
    else s

/-- Closes the blocks that are deeper than a column, outside of flow collections. -/
def unroll (s : Scanner) (column : Int) : Scanner :=
  if s.flowLevel ≠ 0 then s else unrollFrom column s.indents s

/-- Passes over blanks, comments and line ends up to the next token. -/
def toNextToken : Nat → Scanner → Scanner
  | 0, s => s
  | fuel + 1, s =>
    let s := if s.mark.index == 0 && s.ahead 0 == some '\uFEFF' then { s with mark := s.mark.next }
      else s
    let tabs := s.flowLevel ≠ 0 || !s.keyAllowed
    let m := (s.input.run (fun c => c == ' ' || (tabs && c == '\t')) s.mark).2
    let m := s.input.pastComment m
    if holds isBreak (s.input.ahead m 0) then
      toNextToken fuel { s with
        mark := (readBreak s.input m).2
        keyAllowed := s.keyAllowed || s.flowLevel == 0 }
    else { s with mark := m }

def fetchStart (s : Scanner) : Scanner :=
  let s := { s with started := true, keyAllowed := true, candidates := [.none] }
  s.push .streamStart s.mark s.mark

def fetchEnd (s : Scanner) : Except Fault Scanner := do
  let s := if s.mark.column ≠ 0 then
      { s with mark := ⟨s.mark.index, s.mark.line + 1, 0⟩ } else s
  let s ← (s.unroll (-1)).dropCandidate
  .ok ({ s with keyAllowed := false }.push .streamEnd s.mark s.mark)

def fetchDocumentMark (s : Scanner) (kind : TokenKind) : Except Fault Scanner := do
  let s ← (s.unroll (-1)).dropCandidate
  let stop := s.mark.advance 3
  .ok ({ s with keyAllowed := false, mark := stop }.push kind s.mark stop)

def readVersionNumber (s : Input) (began m : Mark) : Except Fault (Nat × Mark) :=
  let (digits, stop) := s.run Char.isDigit m
  let what := "while scanning a %YAML directive"
  if 9 < digits.length then
    .error (.within what began "found extremely long version number" (m.advance 9))
  else if digits.isEmpty then
    .error (.within what began "did not find expected version number" m)
  else .ok (digits.foldl (fun n c => n * 10 + (c.toNat - 48)) 0, stop)

def readTagHandle (s : Input) (directive : Bool) (began m : Mark) :
    Except Fault (String × Mark) :=
  if s.ahead m 0 ≠ some '!' then
    .error (.within (if directive then "while scanning a tag directive" else "while scanning a tag")
      began "did not find expected '!'" m)
  else
    let (word, stop) := s.run isWordChar m.next
    if s.ahead stop 0 == some '!' then .ok (String.ofList ('!' :: word ++ ['!']), stop.next)
    else if directive && !word.isEmpty then
      .error (.within "while parsing a tag directive" began "did not find expected '!'" stop)
    else .ok (String.ofList ('!' :: word), stop)

def isTagChar (whole : Bool) (c : Char) : Bool :=
  isWordChar c || [';', '/', '?', ':', '@', '&', '=', '+', '$', '.', '!', '~', '*', '\x27', '(',
    ')', '%'].contains c || (whole && [',', '[', ']'].contains c)

/-- The characters of a tag, with percent escapes of ASCII characters resolved. -/
def unescapeTag : List Char → List Char
  | '%' :: a :: b :: rest =>
    match hexValue? a, hexValue? b with
    | some x, some y => Char.ofNat (x * 16 + y) :: unescapeTag rest
    | _, _ => '%' :: unescapeTag (a :: b :: rest)
  | c :: rest => c :: unescapeTag rest
  | [] => []

def readTagText (s : Input) (whole directive : Bool) (head : List Char) (began m : Mark) :
    Except Fault (String × Mark) :=
  let (word, stop) := s.run (isTagChar whole) m
  if head.isEmpty && word.isEmpty then
    .error (.within (if directive then "while parsing a %TAG directive" else "while parsing a tag")
      began "did not find expected tag URI" stop)
  else .ok (String.ofList (head ++ unescapeTag word), stop)

def readDirective (s : Input) (m : Mark) : Except Fault (TokenKind × Mark) := do
  let (name, stop) := s.run isWordChar m.next
  let what := "while scanning a directive"
  if name.isEmpty then .error (.within what m "could not find expected directive name" stop)
  else if !blankOrEnds (s.ahead stop 0) then
    .error (.within what m "found unexpected non-alphabetical character" stop)
  else if String.ofList name = "YAML" then
    let (major, stop) ← readVersionNumber s m (s.pastSpaces stop)
    if s.ahead stop 0 ≠ some '.' then
      .error (.within "while scanning a %YAML directive" m
        "did not find expected digit or '.' character" stop)
    else
      let (minor, stop) ← readVersionNumber s m stop.next
      .ok (.versionDirective major minor, stop)
  else if String.ofList name = "TAG" then
    let (handle, stop) ← readTagHandle s true m (s.pastSpaces stop)
    if !holds isSpace (s.ahead stop 0) then
      .error (.within "while scanning a %TAG directive" m "did not find expected whitespace" stop)
    else
      let (lead, stop) ← readTagText s true true [] m (s.pastSpaces stop)
      if !blankOrEnds (s.ahead stop 0) then
        .error (.within "while scanning a %TAG directive" m
          "did not find expected whitespace or line break" stop)
      else .ok (.tagDirective handle lead, stop)
  else .error (.within what m "found unknown directive name" stop)

def fetchDirective (s : Scanner) : Except Fault Scanner := do
  let s ← (s.unroll (-1)).dropCandidate
  let (kind, stop) ← readDirective s.input s.mark
  let place := s.input.pastComment (s.input.pastSpaces stop)
  if !breaksOrEnds (s.input.ahead place 0) then
    .error (.within "while scanning a directive" s.mark
      "did not find expected comment or line break" place)
  else
    .ok ({ s with keyAllowed := false, mark := (readBreak s.input place).2 }.push kind s.mark stop)

def single (s : Scanner) (kind : TokenKind) : Scanner :=
  { s with mark := s.mark.next }.push kind s.mark s.mark.next

def fetchFlowStart (s : Scanner) (kind : TokenKind) : Except Fault Scanner := do
  let s ← s.saveCandidate
  let s := { s with candidates := .none :: s.candidates, keyAllowed := true }
  .ok ({ s with flowLevel := s.flowLevel + 1 }.single kind)

def fetchFlowEnd (s : Scanner) (kind : TokenKind) : Except Fault Scanner := do
  let s ← s.dropCandidate
  let s := if s.flowLevel = 0 then s
    else { s with flowLevel := s.flowLevel - 1, candidates := s.candidates.drop 1 }
  .ok ({ s with keyAllowed := false }.single kind)

def fetchFlowEntry (s : Scanner) : Except Fault Scanner := do
  let s ← s.dropCandidate
  .ok ({ s with keyAllowed := true }.single .flowEntry)

def fetchBlockEntry (s : Scanner) : Except Fault Scanner := do
  if s.flowLevel = 0 && !s.keyAllowed then
    .error (.plain "block sequence entries are not allowed in this context" s.mark)
  else
    let s ← (s.roll s.mark.column none .blockSequenceStart s.mark).dropCandidate
    .ok ({ s with keyAllowed := true }.single .blockEntry)

def fetchKey (s : Scanner) : Except Fault Scanner := do
  if s.flowLevel = 0 && !s.keyAllowed then
    .error (.plain "mapping keys are not allowed in this context" s.mark)
  else
    let s ← (s.roll s.mark.column none .blockMappingStart s.mark).dropCandidate
    .ok ({ s with keyAllowed := s.flowLevel == 0 }.single .key)

/-- The sign of a value, which may turn what stands before it into a key. -/
def fetchValue (s : Scanner) : Except Fault Scanner :=
  match s.candidates with
  | c :: rest =>
    if c.possible then
      let s := s.insert c.token ⟨.key, c.mark, c.mark⟩
      let s := s.roll c.mark.column (some c.token) .blockMappingStart c.mark
      let s := { s with candidates := { c with possible := false } :: rest }
      .ok ({ s with keyAllowed := false }.single .value)
    else withoutKey
  | [] => withoutKey
where
  /-- A value behind no key on its line. -/
  withoutKey : Except Fault Scanner :=
    if s.flowLevel = 0 && !s.keyAllowed then
      .error (.plain "mapping values are not allowed in this context" s.mark)
    else
      let s := s.roll s.mark.column none .blockMappingStart s.mark
      .ok ({ s with keyAllowed := s.flowLevel == 0 }.single .value)

def fetchAnchor (s : Scanner) (isAlias : Bool) : Except Fault Scanner := do
  let s ← s.saveCandidate
  let (name, stop) := s.input.run isWordChar s.mark.next
  let follows := s.input.ahead stop 0
  if name.isEmpty || !(blankOrEnds follows ||
      holds (['?', ':', ',', ']', '\x7d', '%', '@', '\x60'].contains ·) follows) then
    .error (.within (if isAlias then "while scanning an alias" else "while scanning an anchor")
      s.mark "did not find expected alphabetic or numeric character" stop)
  else
    let text := String.ofList name
    .ok ({ s with keyAllowed := false, mark := stop }.push
      (if isAlias then .reference text else .anchor text) s.mark stop)

def readTag (s : Input) (m : Mark) : Except Fault (String × String × Mark) := do
  if s.ahead m 1 == some '<' then
    let (suffix, stop) ← readTagText s true false [] m (m.advance 2)
    if s.ahead stop 0 ≠ some '>' then
      .error (.within "while scanning a tag" m "did not find the expected '>'" stop)
    else .ok ("", suffix, stop.next)
  else
    let (handle, stop) ← readTagHandle s false m m
    let cs := handle.toList
    if 2 ≤ cs.length && cs.getLast? == some '!' then
      let (suffix, stop) ← readTagText s false false [] m stop
      .ok (handle, suffix, stop)
    else
      let (word, stop) := s.run (isTagChar false) stop
      let suffix := String.ofList (cs.drop 1 ++ unescapeTag word)
      .ok (if suffix = "" then ("", "!", stop) else ("!", suffix, stop))

def fetchTag (s : Scanner) : Except Fault Scanner := do
  let s ← s.saveCandidate
  let (handle, suffix, stop) ← readTag s.input s.mark
  let follows := s.input.ahead stop 0
  if blankOrEnds follows || (s.flowLevel ≠ 0 && follows == some ',') then
    .ok ({ s with keyAllowed := false, mark := stop }.push (.tag handle suffix) s.mark stop)
  else
    .error (.within "while scanning a tag" s.mark
      "did not find expected whitespace or line break" stop)

def fetchBlockScalar (s : Scanner) (literal : Bool) : Except Fault Scanner := do
  let s ← s.dropCandidate
  let (text, stop) ← readBlock s.input literal s.indent s.mark
  .ok ({ s with keyAllowed := true, mark := stop }.push
    (.scalar text (if literal then .literal else .folded)) s.mark stop)

def fetchQuoted (s : Scanner) (single : Bool) : Except Fault Scanner := do
  let s ← s.saveCandidate
  let (text, stop) ← readQuoted s.input single s.mark
  .ok ({ s with keyAllowed := false, mark := stop }.push
    (.scalar text (if single then .singleQuoted else .doubleQuoted)) s.mark stop)

def fetchPlain (s : Scanner) : Except Fault Scanner := do
  let s ← s.saveCandidate
  let p ← readPlain s.input (s.flowLevel ≠ 0) s.indent s.mark
  .ok ({ s with keyAllowed := p.broken, mark := p.place }.push
    (.scalar (String.ofList p.text) .plain) s.mark p.stop)

def plainStarts (s : Scanner) (c : Char) : Bool :=
  let special := ['-', '?', ':', ',', '[', ']', '\x7b', '\x7d', '#', '&', '*', '!', '|', '>',
    '\x27', '"', '%', '@', '\x60']
  !(isSpace c || isBreak c || special.contains c) ||
    (c == '-' && !holds isSpace (s.ahead 1)) ||
    (s.flowLevel = 0 && (c == '?' || c == ':') && !blankOrEnds (s.ahead 1))

def fetchNext (s : Scanner) : Except Fault Scanner := do
  if !s.started then .ok s.fetchStart
  else
    let s ← (toNextToken (s.input.size + 1) s).dropStale
    let s := s.unroll s.mark.column
    match s.ahead 0 with
    | none => s.fetchEnd
    | some c =>
      let spaced := blankOrEnds (s.ahead 1)
      if s.mark.column = 0 && c == '%' then s.fetchDirective
      else if s.input.marksDocument '-' s.mark then s.fetchDocumentMark .documentStart
      else if s.input.marksDocument '.' s.mark then s.fetchDocumentMark .documentEnd
      else if c == '[' then s.fetchFlowStart .flowSequenceStart
      else if c == '\x7b' then s.fetchFlowStart .flowMappingStart
      else if c == ']' then s.fetchFlowEnd .flowSequenceEnd
      else if c == '\x7d' then s.fetchFlowEnd .flowMappingEnd
      else if c == ',' then s.fetchFlowEntry
      else if c == '-' && spaced then s.fetchBlockEntry
      else if c == '?' && (s.flowLevel ≠ 0 || spaced) then s.fetchKey
      else if c == ':' && (s.flowLevel ≠ 0 || spaced) then s.fetchValue
      else if c == '*' then s.fetchAnchor true
      else if c == '&' then s.fetchAnchor false
      else if c == '!' then s.fetchTag
      else if c == '|' && s.flowLevel = 0 then s.fetchBlockScalar true
      else if c == '>' && s.flowLevel = 0 then s.fetchBlockScalar false
      else if c == '\x27' then s.fetchQuoted true
      else if c == '"' then s.fetchQuoted false
      else if s.plainStarts c then s.fetchPlain
      else .error (s.fault "while scanning for the next token" s.mark
        "found character that cannot start any token")

/-- Whether the first token of the queue may still get a key before it. -/
def undecided (s : Scanner) : Bool :=
  s.queue.isEmpty || s.candidates.any fun c => c.possible && c.token == s.taken

/-- Cuts tokens until the first of the queue is decided. -/
def ensure : Nat → Scanner → Except Fault Scanner
  | 0, s => .ok s
  | fuel + 1, s => do
    let s ← if s.queue.isEmpty then .ok s else s.dropStale
    if s.undecided then ensure fuel (← s.fetchNext) else .ok s

/-- The next token, which stays in the queue. -/
def peek (s : Scanner) : Except Fault (Token × Scanner) := do
  let s ← ensure (2 * s.input.size + 4) s
  match s.queue with
  | token :: _ => .ok (token, s)
  | [] => .error (s.fault "while scanning for the next token" s.mark
      "found character that cannot start any token")

def take (s : Scanner) : Scanner :=
  { s with queue := s.queue.drop 1, taken := s.taken + 1 }

end Scanner

end ProjectOutline.Yaml
