import ProjectOutline.Yaml.Cursor

/-!
Reading the scalars of a YAML text: plain, quoted and block scalars. Line ends inside a flow scalar
fold into a space, or into one line end fewer than there are.
-/

namespace ProjectOutline.Yaml

/-- Line ends and blanks seen inside a flow scalar since its last visible character. -/
structure Gap where
  /-- Whether a line has ended. -/
  broken : Bool
  blanks : List Char
  /-- The first line end, if it was not escaped. -/
  first : List Char
  /-- The line ends behind the first. -/
  others : List Char

def Gap.none : Gap := ⟨false, [], [], []⟩

/-- What a gap contributes to the scalar. -/
def Gap.fold (g : Gap) : List Char :=
  if g.broken then
    if g.first.head? == some '\n' then (if g.others.isEmpty then [' '] else g.others)
    else g.first ++ g.others
  else g.blanks

/-- Reads the gap from a place on. `refuse` tells the places where a tab is not allowed. -/
def readGap (s : Input) (refuse : Mark → Bool) :
    Nat → Gap → Mark → Except Mark (Gap × Mark)
  | 0, g, m => .ok (g, m)
  | fuel + 1, g, m =>
    match s.ahead m 0 with
    | none => .ok (g, m)
    | some c =>
      if isSpace c then
        if g.broken && c == '\t' && refuse m then .error m
        else if g.broken then readGap s refuse fuel g m.next
        else readGap s refuse fuel { g with blanks := g.blanks ++ [c] } m.next
      else if isBreak c then
        let (text, stop) := readBreak s m
        if g.broken then readGap s refuse fuel { g with others := g.others ++ text } stop
        else readGap s refuse fuel { g with broken := true, blanks := [], first := text } stop
      else .ok (g, m)

def hexValue? (c : Char) : Option Nat :=
  if '0' ≤ c && c ≤ '9' then some (c.toNat - 48)
  else if 'a' ≤ c && c ≤ 'f' then some (c.toNat - 87)
  else if 'A' ≤ c && c ≤ 'F' then some (c.toNat - 55)
  else none

def readHex (s : Input) (m : Mark) : Nat → Nat → Option Nat
  | 0, value => some value
  | count + 1, value =>
    match (s.ahead m 0).bind hexValue? with
    | some digit => readHex s m.next count (value * 16 + digit)
    | none => none

def simpleEscape? : Char → Option Char
  | '0' => some '\x00'
  | 'a' => some '\x07'
  | 'b' => some '\x08'
  | 't' | '\t' => some '\t'
  | 'n' => some '\n'
  | 'v' => some '\x0b'
  | 'f' => some '\x0c'
  | 'r' => some '\r'
  | 'e' => some '\x1b'
  | ' ' => some ' '
  | '"' => some '"'
  | '/' => some '/'
  | '\\' => some '\\'
  | 'N' => some '\u0085'
  | '_' => some '\u00a0'
  | 'L' => some '\u2028'
  | 'P' => some '\u2029'
  | _ => none

def escapeDigits? : Char → Option Nat
  | 'x' => some 2
  | 'u' => some 4
  | 'U' => some 8
  | _ => none

def readEscape (s : Input) (began m : Mark) : Except Fault (Char × Mark) :=
  let fault (problem : String) (mark : Mark) : Fault :=
    .within "while parsing a quoted scalar" began problem mark
  match s.ahead m 1 with
  | none => .error (fault "found unknown escape character" m)
  | some c =>
    match simpleEscape? c with
    | some meant => .ok (meant, m.advance 2)
    | none =>
      match escapeDigits? c with
      | none => .error (fault "found unknown escape character" m)
      | some count =>
        let digits := m.advance 2
        match readHex s digits count 0 with
        | none => .error (fault "did not find expected hexdecimal number" digits)
        | some value =>
          if h : value.isValidChar then .ok (Char.ofNatAux value h, digits.advance count)
          else .error (fault "found invalid Unicode character escape code" digits)

/-- Reads the visible characters of a quoted scalar up to a blank, a line end or the closing quote.
The flag tells whether an escaped line end stopped the reading. -/
def readQuotedWord (s : Input) (single : Bool) (began : Mark) :
    Nat → Mark → Except Fault (List Char × Mark × Bool)
  | 0, m => .ok ([], m, false)
  | fuel + 1, m =>
    match s.ahead m 0 with
    | none => .ok ([], m, false)
    | some c =>
      if isSpace c || isBreak c then .ok ([], m, false)
      else if single && c == '\x27' && s.ahead m 1 == some '\x27' then do
        let (cs, rest) ← readQuotedWord s single began fuel (m.advance 2)
        .ok ('\x27' :: cs, rest)
      else if c == (if single then '\x27' else '"') then .ok ([], m, false)
      else if !single && c == '\\' && holds isBreak (s.ahead m 1) then
        .ok ([], (readBreak s m.next).2, true)
      else if !single && c == '\\' then do
        let (meant, stop) ← readEscape s began m
        let (cs, rest) ← readQuotedWord s single began fuel stop
        .ok (meant :: cs, rest)
      else do
        let (cs, rest) ← readQuotedWord s single began fuel m.next
        .ok (c :: cs, rest)

def readQuotedBody (s : Input) (single : Bool) (began : Mark) :
    Nat → List Char → Mark → Except Fault (List Char × Mark)
  | 0, text, m => .ok (text, m)
  | fuel + 1, text, m =>
    let what := "while scanning a quoted scalar"
    if s.atDocumentMark m then
      .error (.within what began "found unexpected document indicator" m)
    else if (s.ahead m 0).isNone then
      .error (.within what began "found unexpected end of stream" m)
    else do
      let (word, stop, escaped) ← readQuotedWord s single began (s.size + 1) m
      let text := text ++ word
      if s.ahead stop 0 == some (if single then '\x27' else '"') then .ok (text, stop.next)
      else
        match readGap s (fun _ => false) (s.size + 1) ⟨escaped, [], [], []⟩ stop with
        | .error _ => .ok (text, stop)
        | .ok (gap, stop) => readQuotedBody s single began fuel (text ++ gap.fold) stop

def readQuoted (s : Input) (single : Bool) (m : Mark) : Except Fault (String × Mark) := do
  let (text, stop) ← readQuotedBody s single m (s.size + 1) [] m.next
  .ok (String.ofList text, stop)

def readPlainWord (s : Input) (inFlow : Bool) (began : Mark) :
    Nat → Mark → Except Fault (List Char × Mark)
  | 0, m => .ok ([], m)
  | fuel + 1, m =>
    match s.ahead m 0 with
    | none => .ok ([], m)
    | some c =>
      if isSpace c || isBreak c then .ok ([], m)
      else if inFlow && c == ':' && holds ([',', '?', '[', ']', '\x7b', '\x7d'].contains ·)
          (s.ahead m 1) then
        .error (.within "while scanning a plain scalar" began "found unexpected ':'" m)
      else if c == ':' && blankOrEnds (s.ahead m 1) then .ok ([], m)
      else if inFlow && [',', '[', ']', '\x7b', '\x7d'].contains c then .ok ([], m)
      else do
        let (cs, stop) ← readPlainWord s inFlow began fuel m.next
        .ok (c :: cs, stop)

/-- What a plain scalar reads: its text, the place behind it, the place behind the blanks that
follow, and whether a line ended there. -/
structure PlainScalar where
  text : List Char
  stop : Mark
  place : Mark
  broken : Bool

/-- Reads a plain scalar word by word. -/
def readPlainBody (s : Input) (inFlow : Bool) (indent : Int) (began : Mark) :
    Nat → PlainScalar → Gap → Except Fault PlainScalar
  | 0, p, _ => .ok p
  | fuel + 1, p, gap =>
    let m := p.place
    if s.atDocumentMark m || s.ahead m 0 == some '#' then .ok p
    else do
      let (word, stop) ← readPlainWord s inFlow began (s.size + 1) m
      let p := if word.isEmpty then p
        else { text := p.text ++ gap.fold ++ word, stop := stop, place := stop, broken := false }
      let gap := if word.isEmpty then gap else Gap.none
      if !holds (fun c => isSpace c || isBreak c) (s.ahead stop 0) then .ok p
      else
        match readGap s (fun t => (t.column : Int) < indent) (s.size + 1) gap stop with
        | .error at' =>
          .error (.within "while scanning a plain scalar" began
            "found a tab character that violates indentation" at')
        | .ok (gap, place) =>
          let p := { p with place := place, broken := gap.broken }
          if !inFlow && (place.column : Int) < indent then .ok p
          else readPlainBody s inFlow indent began fuel p gap

/-- Reads a plain scalar in a block that is indented by `indent`. -/
def readPlain (s : Input) (inFlow : Bool) (indent : Int) (m : Mark) : Except Fault PlainScalar :=
  readPlainBody s inFlow (indent + 1) m (s.size + 1) ⟨[], m, m, false⟩ Gap.none

/-- What happens to the line ends at the end of a block scalar. -/
inductive Chomping where
  | clip
  | strip
  | keep
deriving DecidableEq, Repr

def chomping? : Option Char → Option Chomping
  | some '+' => some .keep
  | some '-' => some .strip
  | _ => none

/-- The header of a block scalar: its chomping and the indentation it asks for. -/
def readBlockHeader (s : Input) (began m : Mark) : Except Fault (Chomping × Nat × Mark) :=
  let zero (at' : Mark) : Fault := .within "while scanning a block scalar" began
    "found an indentation indicator equal to 0" at'
  let digit? (at' : Mark) : Option Nat :=
    (s.ahead at' 0).bind fun c => if c.isDigit then some (c.toNat - 48) else none
  match chomping? (s.ahead m 0) with
  | some chomping =>
    match digit? m.next with
    | some 0 => .error (zero m.next)
    | some n => .ok (chomping, n, m.advance 2)
    | none => .ok (chomping, 0, m.next)
  | none =>
    match digit? m with
    | some 0 => .error (zero m)
    | some n =>
      match chomping? (s.ahead m 1) with
      | some chomping => .ok (chomping, n, m.advance 2)
      | none => .ok (.clip, n, m.next)
    | none => .ok (.clip, 0, m)

/-- Reads the indentation and the empty lines of a block scalar. `indent` is zero until the first
line with text has set it. -/
def readBlockBreaks (s : Input) (began : Mark) (indent : Nat) :
    Nat → Nat → List Char → Mark → Except Fault (Nat × List Char × Mark)
  | 0, widest, breaks, m => .ok (widest, breaks, m)
  | fuel + 1, widest, breaks, m =>
    let inIndent (at' : Mark) : Bool := indent == 0 || at'.column < indent
    if s.ahead m 0 == some ' ' && inIndent m then
      readBlockBreaks s began indent fuel widest breaks m.next
    else
      let widest := max widest m.column
      if s.ahead m 0 == some '\t' && inIndent m then
        .error (.within "while scanning a block scalar" began
          "found a tab character where an indentation space is expected" m)
      else if holds isBreak (s.ahead m 0) then
        let (text, stop) := readBreak s m
        readBlockBreaks s began indent fuel widest (breaks ++ text) stop
      else .ok (widest, breaks, m)

/-- Reads the lines of a block scalar. `lead` is the line end before the current line, `breaks` are
the empty lines behind it. -/
def readBlockLines (s : Input) (literal : Bool) (began : Mark) (indent : Nat) :
    Nat → List Char → List Char → List Char → Bool → Mark →
      Except Fault (List Char × List Char × List Char × Mark)
  | 0, text, lead, breaks, _, m => .ok (text, lead, breaks, m)
  | fuel + 1, text, lead, breaks, blankBefore, m =>
    if m.column == indent && (s.ahead m 0).isSome then do
      let blank := holds isSpace (s.ahead m 0)
      let joint :=
        if !literal && lead.head? == some '\n' && !blankBefore && !blank then
          if breaks.isEmpty then [' '] else []
        else lead
      let (line, stop) := s.run (fun _ => true) m
      let (lead, stop) := readBreak s stop
      let (_, newBreaks, stop) ← readBlockBreaks s began indent (s.size + 1) 0 [] stop
      readBlockLines s literal began indent fuel (text ++ joint ++ breaks ++ line) lead newBreaks
        blank stop
    else .ok (text, lead, breaks, m)

/-- Reads a block scalar in a block that is indented by `parent`. -/
def readBlock (s : Input) (literal : Bool) (parent : Int) (m : Mark) :
    Except Fault (String × Mark) := do
  let (chomping, asked, place) ← readBlockHeader s m m.next
  let place := s.pastComment (s.pastSpaces place)
  if !breaksOrEnds (s.ahead place 0) then
    .error (.within "while scanning a block scalar" m
      "did not find expected comment or line break" place)
  else
    let place := (readBreak s place).2
    let indent : Nat :=
      if asked = 0 then 0 else if 0 ≤ parent then parent.toNat + asked else asked
    let (widest, breaks, place) ← readBlockBreaks s m indent (s.size + 1) 0 [] place
    let indent := if indent = 0 then max (max widest (parent + 1).toNat) 1 else indent
    let (text, lead, breaks, place) ←
      readBlockLines s literal m indent (s.size + 1) [] [] breaks false place
    let text := if chomping = .strip then text else text ++ lead
    let text := if chomping = .keep then text ++ breaks else text
    .ok (String.ofList text, place)

end ProjectOutline.Yaml
