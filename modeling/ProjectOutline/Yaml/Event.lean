import ProjectOutline.Yaml.Scanner

/-!
The events of a YAML text: what its tokens say about documents, collections and scalars. The reader
is a machine that turns tokens into one event after another; a stack tells it where to go on when a
node is complete.
-/

namespace ProjectOutline.Yaml

inductive EventKind where
  | streamStart
  | streamEnd
  | documentStart
  | documentEnd
  | reference (name : String)
  | scalar (anchor tag : Option String) (text : String) (style : Style)
  | sequenceStart (anchor tag : Option String)
  | sequenceEnd
  | mappingStart (anchor tag : Option String)
  | mappingEnd
deriving DecidableEq, Repr, Inhabited

/-- An event and the place where it starts. -/
structure Event where
  kind : EventKind
  mark : Mark
deriving DecidableEq, Repr, Inhabited

inductive Phase where
  | streamStart
  | firstDocument
  | documentStart
  | documentContent
  | documentEnd
  | blockNode
  | blockSequence (first : Bool)
  | indentlessSequence
  | blockKey (first : Bool)
  | blockValue
  | flowSequence (first : Bool)
  | flowPairKey
  | flowPairValue
  | flowPairEnd
  | flowKey (first : Bool)
  | flowValue
  | flowEmptyValue
  | finished
deriving DecidableEq, Repr, Inhabited

/-- The machine. -/
structure EventReader where
  scanner : Scanner
  phase : Phase
  /-- Where to go on behind the nodes that are open. -/
  pending : List Phase
  /-- Where the open collections began. -/
  marks : List Mark
  /-- Tag prefixes by handle. -/
  tagLeads : List (String × String)

namespace EventReader

/-- What a step of the machine gives. -/
abbrev Step := Except Fault (Event × EventReader)

def start (input : Input) : EventReader where
  scanner := .start input
  phase := .streamStart
  pending := []
  marks := []
  tagLeads := []

def peek (r : EventReader) : Except Fault (Token × EventReader) := do
  let (token, scanner) ← r.scanner.peek
  .ok (token, { r with scanner := scanner })

def take (r : EventReader) : EventReader := { r with scanner := r.scanner.take }

def resume (r : EventReader) : EventReader :=
  match r.pending with
  | phase :: rest => { r with phase := phase, pending := rest }
  | [] => { r with phase := .finished }

def later (r : EventReader) (phase : Phase) : EventReader :=
  { r with pending := phase :: r.pending }

def goto (r : EventReader) (phase : Phase) : EventReader := { r with phase := phase }

def dropMark (r : EventReader) : EventReader := { r with marks := r.marks.drop 1 }

/-- Where the innermost collection began. -/
def began (r : EventReader) : Mark := r.marks.headD .origin

def give (r : EventReader) (kind : EventKind) (mark : Mark) : Step := .ok (⟨kind, mark⟩, r)

def empty (r : EventReader) (mark : Mark) : Step :=
  r.give (.scalar none none "" .plain) mark

/-- The anchor and tag before a node. -/
structure Properties where
  anchor : Option String
  tag : Option (String × String × Mark)
  start : Option Mark

/-- Reads the anchor and tag before a node, each at most once. -/
def properties : Nat → Properties → EventReader → Except Fault (Properties × Token × EventReader)
  | 0, p, r => do
    let (token, r) ← r.peek
    .ok (p, token, r)
  | fuel + 1, p, r => do
    let (token, r) ← r.peek
    match token.kind, p.anchor, p.tag with
    | .anchor name, none, _ =>
      let start := p.start.getD token.start
      properties fuel { p with anchor := some name, start := some start } r.take
    | .tag handle suffix, _, none =>
      let start := p.start.getD token.start
      let tag := (handle, suffix, token.start)
      properties fuel { p with tag := some tag, start := some start } r.take
    | _, _, _ => .ok (p, token, r)

def wholeTag (r : EventReader) (began : Mark) :
    Option (String × String × Mark) → Except Fault (Option String)
  | none => .ok none
  | some (handle, suffix, mark) =>
    if handle = "" then .ok (some suffix)
    else
      match r.tagLeads.lookup handle with
      | some lead => .ok (some (lead ++ suffix))
      | none => .error (.within "while parsing a node" began "found undefined tag handle" mark)

/-- Reads a node: an alias, a scalar or the start of a collection. -/
def node (r : EventReader) (block indentless : Bool) : Step := do
  let (token, r) ← r.peek
  match token.kind with
  | .reference name => r.take.resume.give (.reference name) token.start
  | _ =>
    let (p, token, r) ← properties 2 ⟨none, none, none⟩ r
    let start := p.start.getD token.start
    let tag ← wholeTag r start p.tag
    match token.kind with
    | .blockEntry =>
      if indentless then (r.goto .indentlessSequence).give (.sequenceStart p.anchor tag) start
      else missing r p tag start token block
    | .scalar text style =>
      let tag := if tag = some "!" then none else tag
      r.take.resume.give (.scalar p.anchor tag text style) start
    | .flowSequenceStart => (r.goto (.flowSequence true)).give (.sequenceStart p.anchor tag) start
    | .flowMappingStart => (r.goto (.flowKey true)).give (.mappingStart p.anchor tag) start
    | .blockSequenceStart =>
      if block then (r.goto (.blockSequence true)).give (.sequenceStart p.anchor tag) start
      else missing r p tag start token block
    | .blockMappingStart =>
      if block then (r.goto (.blockKey true)).give (.mappingStart p.anchor tag) start
      else missing r p tag start token block
    | _ => missing r p tag start token block
where
  /-- A node without contents: allowed behind an anchor or a tag. -/
  missing (r : EventReader) (p : Properties) (tag : Option String) (start : Mark) (token : Token)
      (block : Bool) : Step :=
    if p.anchor.isSome || tag.isSome then r.resume.give (.scalar p.anchor tag "" .plain) start
    else
      .error (.within (if block then "while parsing a block node" else "while parsing a flow node")
        start "did not find expected node content" token.start)

/-- Reads a node and then goes on at a phase. -/
def nodeThen (r : EventReader) (phase : Phase) (block indentless : Bool) : Step :=
  (r.later phase).node block indentless

def standardLeads : List (String × String) := [("!", "!"), ("!!", "tag:yaml.org,2002:")]

def directives : Nat → Bool → EventReader → Except Fault (Token × EventReader)
  | 0, _, r => r.peek
  | fuel + 1, versioned, r => do
    let (token, r) ← r.peek
    match token.kind with
    | .versionDirective major minor =>
      if versioned then .error (.plain "found duplicate %YAML directive" token.start)
      else if major ≠ 1 || (minor ≠ 1 && minor ≠ 2) then
        .error (.plain "found incompatible YAML document" token.start)
      else directives fuel true r.take
    | .tagDirective handle lead =>
      if (r.tagLeads.lookup handle).isSome then
        .error (.plain "found duplicate %TAG directive" token.start)
      else directives fuel versioned { r.take with tagLeads := r.tagLeads ++ [(handle, lead)] }
    | _ => .ok (token, { r with tagLeads := r.tagLeads ++ standardLeads })

/-- Passes over the marks that end documents. -/
def pastDocumentEnds : Nat → EventReader → Except Fault (Token × EventReader)
  | 0, r => r.peek
  | fuel + 1, r => do
    let (token, r) ← r.peek
    if token.kind = .documentEnd then pastDocumentEnds fuel r.take else .ok (token, r)

/-- Reads the start of a document that is announced, or the end of the stream. -/
def announcedDocument (r : EventReader) (token : Token) : Step := do
  if token.kind = .streamEnd then (r.take.goto .finished).give .streamEnd token.start
  else
    let began := token.start
    let (token, r) ← directives (r.scanner.input.size + 1) false r
    if token.kind = .documentStart then
      ((r.later .documentEnd).goto .documentContent).take.give .documentStart began
    else .error (.plain "did not find expected <document start>" token.start)

def announces : TokenKind → Bool
  | .versionDirective _ _ | .tagDirective _ _ | .documentStart | .streamEnd => true
  | _ => false

def next (r : EventReader) : Step := do
  let size := r.scanner.input.size + 1
  match r.phase with
  | .streamStart =>
    let (token, r) ← r.peek
    (r.take.goto .firstDocument).give .streamStart token.start
  | .firstDocument =>
    let (token, r) ← r.peek
    if announces token.kind then announcedDocument r token
    else
      let r := { r with tagLeads := standardLeads }
      ((r.later .documentEnd).goto .blockNode).give .documentStart token.start
  | .documentStart =>
    let (token, r) ← pastDocumentEnds size r
    announcedDocument r token
  | .documentContent =>
    let (token, r) ← r.peek
    if announces token.kind || token.kind = .documentEnd then r.resume.empty token.start
    else r.node true false
  | .documentEnd =>
    let (token, r) ← r.peek
    let r := if token.kind = .documentEnd then r.take else r
    ({ r with tagLeads := [] }.goto .documentStart).give .documentEnd token.start
  | .blockNode => r.node true false
  | .blockSequence first =>
    let r ← enter r first
    let (token, r) ← r.peek
    match token.kind with
    | .blockEntry =>
      let (following, r) ← r.take.peek
      match following.kind with
      | .blockEntry | .blockEnd => (r.goto (.blockSequence false)).empty token.stop
      | _ => r.nodeThen (.blockSequence false) true false
    | .blockEnd => r.resume.dropMark.take.give .sequenceEnd token.start
    | _ => .error (.within "while parsing a block collection" r.began
        "did not find expected '-' indicator" token.start)
  | .indentlessSequence =>
    let (token, r) ← r.peek
    match token.kind with
    | .blockEntry =>
      let (following, r) ← r.take.peek
      match following.kind with
      | .blockEntry | .key | .value | .blockEnd => (r.goto .indentlessSequence).empty token.stop
      | _ => r.nodeThen .indentlessSequence true false
    | _ => r.resume.give .sequenceEnd token.start
  | .blockKey first =>
    let r ← enter r first
    let (token, r) ← r.peek
    match token.kind with
    | .key =>
      let (following, r) ← r.take.peek
      match following.kind with
      | .key | .value | .blockEnd => (r.goto .blockValue).empty token.stop
      | _ => r.nodeThen .blockValue true true
    | .blockEnd => r.resume.dropMark.take.give .mappingEnd token.start
    | _ => .error (.within "while parsing a block mapping" r.began "did not find expected key"
        token.start)
  | .blockValue =>
    let (token, r) ← r.peek
    match token.kind with
    | .value =>
      let (following, r) ← r.take.peek
      match following.kind with
      | .key | .value | .blockEnd => (r.goto (.blockKey false)).empty token.stop
      | _ => r.nodeThen (.blockKey false) true true
    | _ => (r.goto (.blockKey false)).empty token.start
  | .flowSequence first =>
    let r ← enter r first
    let (token, r) ← separated r first .flowSequenceEnd "while parsing a flow sequence"
      "did not find expected ',' or ']'"
    match token.kind with
    | .flowSequenceEnd => r.resume.dropMark.take.give .sequenceEnd token.start
    | .key => (r.take.goto .flowPairKey).give (.mappingStart none none) token.start
    | _ => r.nodeThen (.flowSequence false) false false
  | .flowPairKey =>
    let (token, r) ← r.peek
    match token.kind with
    | .value | .flowEntry | .flowSequenceEnd => (r.take.goto .flowPairValue).empty token.stop
    | _ => r.nodeThen .flowPairValue false false
  | .flowPairValue =>
    let (token, r) ← r.peek
    match token.kind with
    | .value =>
      let (following, r) ← r.take.peek
      match following.kind with
      | .flowEntry | .flowSequenceEnd => (r.goto .flowPairEnd).empty following.start
      | _ => r.nodeThen .flowPairEnd false false
    | _ => (r.goto .flowPairEnd).empty token.start
  | .flowPairEnd =>
    let (token, r) ← r.peek
    (r.goto (.flowSequence false)).give .mappingEnd token.start
  | .flowKey first =>
    let r ← enter r first
    let (token, r) ← separated r first .flowMappingEnd "while parsing a flow mapping"
      "did not find expected ',' or '\x7d'"
    match token.kind with
    | .flowMappingEnd => r.resume.dropMark.take.give .mappingEnd token.start
    | .key =>
      let (following, r) ← r.take.peek
      match following.kind with
      | .value | .flowEntry | .flowMappingEnd => (r.goto .flowValue).empty following.start
      | _ => r.nodeThen .flowValue false false
    | _ => r.nodeThen .flowEmptyValue false false
  | .flowValue =>
    let (token, r) ← r.peek
    match token.kind with
    | .value =>
      let (following, r) ← r.take.peek
      match following.kind with
      | .flowEntry | .flowMappingEnd => (r.goto (.flowKey false)).empty following.start
      | _ => r.nodeThen (.flowKey false) false false
    | _ => (r.goto (.flowKey false)).empty token.start
  | .flowEmptyValue =>
    let (token, r) ← r.peek
    (r.goto (.flowKey false)).empty token.start
  | .finished => r.give .streamEnd r.scanner.mark
where
  /-- Takes the token that opens a collection, and remembers its place. -/
  enter (r : EventReader) (first : Bool) : Except Fault EventReader := do
    if first then
      let (token, r) ← r.peek
      .ok { r.take with marks := token.start :: r.marks }
    else .ok r
  /-- The next token behind the comma that has to stand before it. -/
  separated (r : EventReader) (first : Bool) (closing : TokenKind) (what problem : String) :
      Except Fault (Token × EventReader) := do
    let (token, r) ← r.peek
    if first || token.kind = closing then .ok (token, r)
    else if token.kind = .flowEntry then r.take.peek
    else .error (.within what r.began problem token.start)

/-- The events of a text up to its end or its first fault. -/
def collect : Nat → EventReader → List Event × Option Fault
  | 0, _ => ([], none)
  | fuel + 1, r =>
    match r.next with
    | .error fault => ([], some fault)
    | .ok (event, r) =>
      if event.kind = .streamEnd then ([event], none)
      else
        let (events, fault) := collect fuel r
        (event :: events, fault)

end EventReader

def isAllowed (c : Char) : Bool :=
  let n := c.toNat
  n == 9 || n == 10 || n == 13 || (0x20 ≤ n && n ≤ 0x7E) || n == 0x85 ||
    (0xA0 ≤ n && n ≤ 0xD7FF) || (0xE000 ≤ n && n ≤ 0xFFFD) || 0x10000 ≤ n

/-- How many bytes stand before the first character that is not allowed. -/
def forbiddenOffset? : List Char → Nat → Option Nat
  | [], _ => none
  | c :: rest, offset =>
    if isAllowed c then forbiddenOffset? rest (offset + c.utf8Size) else some offset

/-- The events of a text up to its end or its first fault. A byte order mark at its start does not
count. -/
def eventsOf (text : String) : List Event × Option Fault :=
  let cs := text.toList
  let (cs, skipped) := if cs.head? == some '\uFEFF' then (cs.drop 1, 3) else (cs, 0)
  match forbiddenOffset? cs skipped with
  | some offset => ([], some ⟨"control characters are not allowed", .origin, offset, none⟩)
  | none => EventReader.collect (16 * (cs.length + 16)) (.start cs.toArray)

end ProjectOutline.Yaml
