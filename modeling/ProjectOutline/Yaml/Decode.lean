import ProjectOutline.JsonValue
import ProjectOutline.Text.Quoted
import ProjectOutline.Yaml.Meaning
import ProjectOutline.Yaml.Node

/-!
Reading values out of a YAML document. A decoder walks the nodes and names the first one that does
not fit, by its place in the document and in the text. Faults of the text come up only where the
walk reaches them.
-/

namespace ProjectOutline.Yaml

/-- Where a node stands in its document. -/
inductive Trail where
  | root
  | item (parent : Trail) (index : Nat)
  | member (parent : Trail) (key : String)
  /-- A member whose key is no scalar. -/
  | unnamed (parent : Trail)
deriving DecidableEq, Repr, Inhabited

namespace Trail

def text : Trail → String
  | root => "."
  | item parent index => parent.text ++ "[" ++ toString index ++ "]"
  | member root key => key
  | member parent key => parent.text ++ "." ++ key
  | unnamed root => "?"
  | unnamed parent => parent.text ++ ".?"

end Trail

/-- Why a document is refused. -/
inductive Refusal where
  /-- A node does not fit; its place is known once the node is left. -/
  | mismatch (problem : String) (place : Option (Trail × Mark))
  /-- The document itself cannot be read. -/
  | unreadable (text : String)
deriving DecidableEq, Repr

namespace Refusal

/-- Gives a refusal a place if it has none. -/
def located (trail : Trail) (mark : Mark) : Refusal → Refusal
  | mismatch problem none => mismatch problem (some (trail, mark))
  | r => r

def message : Refusal → String
  | mismatch problem none => problem
  | mismatch problem (some (trail, mark)) =>
    (if trail.text = "." then "" else trail.text ++ ": ") ++ problem ++
      if mark.isOrigin then "" else " at " ++ mark.words
  | unreadable text => text

end Refusal

/-- A reader of nodes. It counts how many aliases it has followed. -/
abbrev Decoder (α : Type) := Document → Nat → Except Refusal (α × Nat)

namespace Decoder

variable {α β : Type}

instance : Monad Decoder where
  pure a := fun _ followed => .ok (a, followed)
  bind d f := fun doc followed => do
    let (a, followed) ← d doc followed
    f a doc followed

def refuse (r : Refusal) : Decoder α := fun _ _ => .error r

def mismatch (problem : String) : Decoder α := refuse (.mismatch problem none)

def within (trail : Trail) (mark : Mark) (d : Decoder α) : Decoder α := fun doc followed =>
  match d doc followed with
  | .error r => .error (r.located trail mark)
  | .ok result => .ok result

def broken : Decoder α := fun doc _ =>
  .error (.unreadable (doc.fault.getD "EOF while parsing a value"))

/-- The node itself, or the node that an alias names. Aliases are followed a hundred times for each
event of the document. -/
def resolve : Node → Decoder Node
  | .reference _ number => fun doc followed =>
    if doc.size * 100 < followed + 1 then .error (.unreadable "repetition limit exceeded")
    else .ok ((doc.nodes.lookup number).getD .broken, followed + 1)
  | .broken => broken
  | node => pure node

end Decoder

/-- The meaning of a scalar with its tag. A standard tag that does not fit the text is refused. -/
def meaningOf (tag : Option String) (style : Style) (text : String) : Except String Meaning :=
  let refuse (expected : String) : Except String Meaning :=
    .error ("invalid value: string " ++ Text.quote text ++ ", expected " ++ expected)
  match tag with
  | none => .ok (if style = .plain then plainMeaning text else .text text)
  | some "tag:yaml.org,2002:bool" => ((bool? text).map (.ok <| .bool ·)).getD (refuse "a boolean")
  | some "tag:yaml.org,2002:int" =>
    ((wholeNumber? text).map (.ok <| .int ·)).getD (refuse "an integer")
  | some "tag:yaml.org,2002:float" => ((fraction? text).map .ok).getD (refuse "a float")
  | some "tag:yaml.org,2002:null" => if isNull text then .ok .null else refuse "null"
  | some other =>
    if other.toList.head? = some '!' && style = .plain then .ok (plainMeaning text)
    else .ok (.text text)

def Meaning.words : Meaning → String
  | null => "unit value"
  | bool value => "boolean \x60" ++ toString value ++ "\x60"
  | int value =>
    "integer \x60" ++ toString value ++ "\x60" ++
      if fitsWord value then "" else if 0 ≤ value then " as u128" else " as i128"
  | decimal number => "floating point \x60" ++ number.render ++ "\x60"
  | infinite negative => "floating point \x60" ++ (if negative then "-inf" else "inf") ++ "\x60"
  | notNumber => "floating point \x60NaN\x60"
  | text word => "string " ++ Text.quote word

def wrongType (found expected : String) : String :=
  "invalid type: " ++ found ++ ", expected " ++ expected

namespace Node

def mark : Node → Mark
  | void | broken => .origin
  | scalar m _ _ _ | sequence m _ _ | mapping m _ _ | reference m _ => m

def isEmpty : Node → Bool
  | void => true
  | scalar _ _ style text => style = .plain && text = ""
  | _ => false

def unexpected {α : Type} (expected : String) : Node → Decoder α
  | scalar _ tag style text =>
    match meaningOf tag style text with
    | .ok meaning => .mismatch (wrongType meaning.words expected)
    | .error problem => .mismatch problem
  | sequence .. => .mismatch (wrongType "sequence" expected)
  | mapping .. => .mismatch (wrongType "map" expected)
  | _ => .refuse (.unreadable "EOF while parsing a value")

/-- Reads a node: aliases are followed, and refusals get its place. -/
def read {α : Type} (trail : Trail) (f : Node → Decoder α) (node : Node) : Decoder α := do
  let node ← Decoder.resolve node
  Decoder.within trail node.mark (f node)

/-- A text: any scalar as it is written. -/
def text (expected : String) (trail : Trail) : Node → Decoder String :=
  read trail fun
    | scalar _ _ _ text => pure text
    | node => unexpected expected node

/-- A text that need not be there: a plain scalar may stand for nothing. -/
def text? (expected : String) (trail : Trail) (node : Node) : Decoder (Option String) := do
  let node ← Decoder.resolve node
  match node with
  | void => return none
  | scalar _ (some "tag:yaml.org,2002:null") .plain word =>
    if isNull word then return none
    else Decoder.mismatch ("invalid value: string " ++ Text.quote word ++ ", expected null")
  | scalar _ none .plain word =>
    if word = "" || isNull word then return none else return some (← text expected trail node)
  | _ => return some (← text expected trail node)

/-- A whole number of 64 bits without a sign. -/
def word (trail : Trail) : Node → Decoder Nat :=
  read trail fun
    | scalar m tag style text =>
      let whole := style = .plain || (style = .literal && tag = some "tag:yaml.org,2002:int")
      match if whole then wholeNumber? text else none with
      | some n =>
        if 0 ≤ n && fitsWord n && text.toList.head? ≠ some '-' then pure n.toNat
        else unexpected "u64" (.scalar m tag style text)
      | none => unexpected "u64" (.scalar m tag style text)
    | node => unexpected "u64" node

def eachItem {α : Type} (f : Nat → Node → Decoder α) : Nat → List Node → Decoder (List α)
  | _, [] => return []
  | index, node :: rest => do
    let a ← f index node
    let more ← eachItem f (index + 1) rest
    return a :: more

def tooDeep {α : Type} (mark : Mark) : Decoder α :=
  .refuse (.unreadable ("recursion limit exceeded" ++
    if mark.isOrigin then "" else " at " ++ mark.words))

/-- The members of a sequence, read by a decoder that may go `depth - 1` levels deeper. -/
def items {α : Type} (f : Nat → Trail → Node → Decoder α) (depth : Nat) (trail : Trail) :
    Node → Decoder (List α) :=
  read trail fun
    | sequence m _ nodes =>
      match depth with
      | 0 => tooDeep m
      | depth + 1 => eachItem (fun index => f depth (.item trail index)) 0 nodes
    | node => if node.isEmpty then pure [] else unexpected "a sequence" node

def valueTrail (trail : Trail) : Node → Trail
  | scalar _ _ _ key => .member trail key
  | _ => .unnamed trail

/-- Reads the entries of a mapping into a state, one after another. The decoder gets the place of
the mapping, the key, the place of the value and the value. -/
def foldEntries {σ : Type} (f : Trail → Node → Trail → Node → σ → Decoder σ) (trail : Trail) :
    List (Node × Node) → σ → Decoder σ
  | [], state => return state
  | (key, value) :: rest, state => do
    let state ← f trail key (valueTrail trail key) value state
    foldEntries f trail rest state

/-- Whether no event is missing below a node. -/
def isWhole : Node → Bool
  | broken => false
  | sequence _ _ items => items.attach.all fun ⟨item, _⟩ => item.isWhole
  | mapping _ _ entries => entries.attach.all fun ⟨(key, value), _⟩ => key.isWhole && value.isWhole
  | _ => true
termination_by node => sizeOf node
decreasing_by
  all_goals simp_wf
  · rename_i h
    have := List.sizeOf_lt_of_mem h
    omega
  · rename_i h
    have := List.sizeOf_lt_of_mem h
    simp at this
    omega
  · rename_i h
    have := List.sizeOf_lt_of_mem h
    simp at this
    omega

def skip (node : Node) : Decoder Unit := if node.isWhole then pure () else .broken

end Node

/-- A kind of record: its name, and what its keys do to the record while it is read. -/
structure RecordShape (σ : Type) where
  name : String
  /-- Whether a key belongs to the record. -/
  knows : String → Bool
  /-- The keys of the record, if other keys are refused. -/
  strict : Option (List String)
  /-- Whether a key has been read. -/
  holds : String → σ → Bool
  /-- Reads the value under a key. -/
  field : Nat → String → Trail → Node → σ → Decoder σ

def oneOf (keys : List String) : String :=
  "expected one of " ++ ", ".intercalate (keys.map fun key => "\x60" ++ key ++ "\x60")

namespace RecordShape

variable {σ α : Type}

def entry (shape : RecordShape σ) (depth : Nat) (trail : Trail) (key : Node) (valueTrail : Trail)
    (value : Node) (state : σ) : Decoder σ := do
  let name ← Node.read trail
    (fun
      | .scalar _ _ _ name =>
        match shape.strict with
        | some keys =>
          if shape.knows name then pure name
          else .mismatch ("unknown field \x60" ++ name ++ "\x60, " ++ oneOf keys)
        | none => pure name
      | node => Node.unexpected "field identifier" node) key
  if !shape.knows name then
    value.skip
    return state
  else if shape.holds name state then
    Decoder.mismatch ("duplicate field \x60" ++ name ++ "\x60")
  else shape.field depth name valueTrail value state

/-- Reads a record, from the state without any field, and completes it. -/
def decode (shape : RecordShape σ) (start : σ) (complete : σ → Except String α) (depth : Nat)
    (trail : Trail) : Node → Decoder α :=
  Node.read trail fun
    | .mapping m _ entries =>
      match depth with
      | 0 => Node.tooDeep m
      | depth + 1 => do finish (← Node.foldEntries (shape.entry depth) trail entries start)
    | node =>
      if node.isEmpty then finish start else Node.unexpected ("struct " ++ shape.name) node
where
  finish (state : σ) : Decoder α :=
    match complete state with
    | .ok a => pure a
    | .error problem => Decoder.mismatch problem

end RecordShape

def jsonOf : Meaning → Decoder JsonValue
  | .null => pure .null
  | .bool value => pure (.bool value)
  | .int value =>
    if fitsWord value then pure (.int value) else .mismatch "JSON number out of range"
  | .decimal number => pure (.decimal number)
  | .infinite _ | .notNumber => pure .null
  | .text text => pure (.str text)

def anyJson : String := "any valid JSON value"

def namesVariant (tag : Option String) : Bool :=
  match tag with
  | some word => word.toList.head? = some '!'
  | none => false

def jsonEntries (value : Trail → Node → Decoder JsonValue) (trail : Trail) :
    Bool → List (Node × Node) → List (String × JsonValue) → Decoder (List (String × JsonValue))
  | _, [], members => return members
  | first, (key, node) :: rest, members => do
    let name ← key.text (if first then "a string key" else "a string") trail
    let json ← value (key.valueTrail trail) node
    jsonEntries value trail false rest (JsonValue.insertMember name json members)

def json : Nat → Trail → Node → Decoder JsonValue
  | depth, trail, node => Node.read trail (fun
    | .scalar _ tag style text =>
      if namesVariant tag then .mismatch (wrongType "enum" anyJson)
      else
        match meaningOf tag style text with
        | .ok meaning => jsonOf meaning
        | .error problem => .mismatch problem
    | .sequence m tag nodes =>
      if namesVariant tag then .mismatch (wrongType "enum" anyJson)
      else
        match depth with
        | 0 => Node.tooDeep m
        | depth + 1 => do
          return .arr (← Node.eachItem (fun index => json depth (.item trail index)) 0 nodes)
    | .mapping m tag entries =>
      if namesVariant tag then .mismatch (wrongType "enum" anyJson)
      else
        match depth with
        | 0 => Node.tooDeep m
        | depth + 1 => do return .obj (← jsonEntries (json depth) trail true entries [])
    | .void => pure .null
    | _ => .broken) node

/-- Reads the only document of a text with a decoder that may go 128 levels deep. -/
def decodeText {α : Type} (decode : Nat → Trail → Node → Decoder α) (text : String) :
    Except String α :=
  let doc := Document.ofText text
  -- A refusal in front of a fault of the text is told first.
  match decode 128 .root doc.root doc 0 with
  | .error refusal => .error refusal.message
  | .ok (a, _) =>
    match doc.fault with
    | some fault => .error fault
    | none =>
      if doc.more then
        .error "deserializing from YAML containing more than one document is not supported"
      else .ok a

end ProjectOutline.Yaml
