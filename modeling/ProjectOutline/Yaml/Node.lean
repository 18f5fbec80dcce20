import ProjectOutline.Yaml.Event

/-!
The nodes of a YAML document. A text with a fault still yields the nodes before the fault: where the
events end, the tree has a `broken` node, and whoever reaches it meets the fault. An alias is kept
as the place of the node it names, so that a node may lie inside itself.
-/

namespace ProjectOutline.Yaml

/-- A node of a document. -/
inductive Node where
  /-- The document of an empty text. -/
  | void
  /-- The events end here. -/
  | broken
  | scalar (mark : Mark) (tag : Option String) (style : Style) (text : String)
  | sequence (mark : Mark) (tag : Option String) (items : List Node)
  | mapping (mark : Mark) (tag : Option String) (entries : List (Node × Node))
  /-- Stands for the node whose event has a number. -/
  | reference (mark : Mark) (number : Nat)
deriving Repr, Inhabited

/-- A collection whose members are still being read. -/
structure OpenCollection where
  mark : Mark
  tag : Option String
  isMapping : Bool
  /-- The number of the event that opened the collection. -/
  number : Nat
  /-- The members so far, last first. -/
  members : List Node
deriving Repr, Inhabited

/-- Keys with their values. A key without a value has a broken one. -/
def pairUp : List Node → List (Node × Node)
  | key :: value :: rest => (key, value) :: pairUp rest
  | [key] => [(key, .broken)]
  | [] => []

def OpenCollection.close (c : OpenCollection) : Node :=
  let members := c.members.reverse
  if c.isMapping then .mapping c.mark c.tag (pairUp members) else .sequence c.mark c.tag members

/-- The nodes read so far. -/
structure Composer where
  /-- The number of the next event. -/
  number : Nat
  /-- The open collections, innermost first. -/
  stack : List OpenCollection
  root : Option Node
  /-- The complete nodes by the numbers of their events. -/
  nodes : List (Nat × Node)
deriving Repr, Inhabited

namespace Composer

def start : Composer := ⟨0, [], none, []⟩

def place (c : Composer) (node : Node) : Composer :=
  match c.stack with
  | top :: rest => { c with stack := { top with members := node :: top.members } :: rest }
  | [] => { c with root := some node }

def keep (c : Composer) (number : Nat) (node : Node) : Composer :=
  { c with nodes := (number, node) :: c.nodes }

def close (c : Composer) : Composer :=
  match c.stack with
  | top :: rest =>
    let node := top.close
    ({ c with stack := rest }.keep top.number node).place node
  | [] => c

/-- Takes one event of a document. `aliasOf` tells which node an alias names. -/
def step (aliasOf : Nat → Nat) (c : Composer) (event : Event) : Composer :=
  let number := c.number
  let later := { c with number := number + 1 }
  let open' (tag : Option String) (isMapping : Bool) : Composer :=
    { later with stack := ⟨event.mark, tag, isMapping, number, []⟩ :: c.stack }
  match event.kind with
  | .scalar _ tag text style =>
    let node := Node.scalar event.mark tag style text
    (later.keep number node).place node
  | .reference _ => later.place (.reference event.mark (aliasOf number))
  | .sequenceStart _ tag => open' tag false
  | .mappingStart _ tag => open' tag true
  | .sequenceEnd | .mappingEnd => later.close
  | _ => later

/-- Closes the collections that are open when the events end. -/
def finish (c : Composer) : Composer :=
  c.stack.foldl (fun c _ => (c.place .broken).close) c

end Composer

/-- What the anchors of a document name. A new anchor gets as its label the number of different
names so far, and a label stands for the node that got it last. -/
structure Anchors where
  /-- Labels by name. -/
  labels : List (String × Nat)
  /-- Numbers of events by label. -/
  targets : List (Nat × Nat)
  /-- Labels of the aliases, by the numbers of their events. -/
  uses : List (Nat × Nat)
deriving Repr, Inhabited

namespace Anchors

def note (a : Anchors) (number : Nat) : Option String → Anchors
  | none => a
  | some name =>
    let label := a.labels.length
    { a with
      labels := (name, label) :: a.labels.filter (·.1 ≠ name)
      targets := (label, number) :: a.targets }

def target (a : Anchors) (use : Nat) : Nat :=
  ((a.uses.lookup use).bind fun label => a.targets.lookup label).getD 0

end Anchors

/-- The events of one document. -/
structure Contents where
  events : List Event
  anchors : Anchors
  /-- The text of the fault at which the events end. -/
  fault : Option String
  /-- What follows the document. -/
  rest : List Event
deriving Repr, Inhabited

def unknownAnchor (mark : Mark) : String :=
  "unknown anchor" ++ if mark.isOrigin then "" else " at " ++ mark.words

/-- Cuts the events of the first document off a stream. -/
def contentsOf (fault : Option String) : List Event → Nat → Anchors → Contents
  | [], _, anchors => ⟨[], anchors, fault, []⟩
  | event :: rest, number, anchors =>
    let go (anchors : Anchors) : Contents :=
      let c := contentsOf fault rest (number + 1) anchors
      { c with events := event :: c.events }
    match event.kind with
    | .streamStart | .documentStart => contentsOf fault rest number anchors
    | .streamEnd => ⟨[], anchors, none, [event]⟩
    | .documentEnd => ⟨[], anchors, none, rest⟩
    | .reference name =>
      match anchors.labels.lookup name with
      | some label => go { anchors with uses := (number, label) :: anchors.uses }
      | none => ⟨[], anchors, some (unknownAnchor event.mark), rest⟩
    | .scalar anchor _ _ _ => go (anchors.note number anchor)
    | .sequenceStart anchor _ => go (anchors.note number anchor)
    | .mappingStart anchor _ => go (anchors.note number anchor)
    | _ => go anchors

/-- A document. -/
structure Document where
  root : Node
  /-- The nodes by the numbers of their events. -/
  nodes : List (Nat × Node)
  /-- How many events it has. -/
  size : Nat
  /-- The text of the fault in it. -/
  fault : Option String
  /-- Whether another document follows. -/
  more : Bool
deriving Repr, Inhabited

def startsDocument (fault : Option String) : List Event → Bool
  | [] => fault.isSome
  | event :: _ => event.kind ≠ .streamEnd

def Document.ofText (text : String) : Document :=
  let (events, fault) := eventsOf text
  let fault := fault.map Fault.message
  let c := contentsOf fault events 0 ⟨[], [], []⟩
  let composed := (c.events.foldl (Composer.step c.anchors.target) .start).finish
  { root := composed.root.getD (if c.fault.isSome then .broken else .void)
    nodes := composed.nodes
    size := max c.events.length 1
    fault := c.fault
    more := startsDocument fault c.rest }

end ProjectOutline.Yaml
