import ProjectOutline.JsonValue
import ProjectOutline.Timestamp
import ProjectOutline.Yaml.Decode
import ProjectOutline.Yaml.Print

/-!
Cassettes: recordings of what a run asked its store and what it was answered. A cassette is kept as
a YAML text.
-/

namespace ProjectOutline

/-- One question to a service and its answer. -/
structure Interaction where
  /-- The number of the interaction in its cassette. -/
  seq : Nat
  service : String
  method : String
  input : JsonValue
  output : JsonValue
deriving Repr, Inhabited

/-- A recording. -/
structure Cassette where
  name : String
  recordedAt : Timestamp
  /-- The commit of the project that was scanned. -/
  commit : String
  interactions : List Interaction
deriving Repr, Inhabited

def required {α : Type} (key : String) : Option α → Except String α
  | some a => .ok a
  | none => .error ("missing field \x60" ++ key ++ "\x60")

namespace Interaction

structure Draft where
  seq : Option Nat
  service : Option String
  method : Option String
  input : Option JsonValue
  output : Option JsonValue

namespace Draft

def blank : Draft := ⟨none, none, none, none, none⟩

def complete (d : Draft) : Except String Interaction := do
  let seq ← required "seq" d.seq
  let service ← required "port" d.service
  let method ← required "method" d.method
  let input ← required "input" d.input
  let output ← required "output" d.output
  .ok ⟨seq, service, method, input, output⟩

def holds (key : String) (d : Draft) : Bool :=
  match key with
  | "seq" => d.seq.isSome
  | "port" => d.service.isSome
  | "method" => d.method.isSome
  | "input" => d.input.isSome
  | "output" => d.output.isSome
  | _ => false

def field (depth : Nat) (key : String) (trail : Yaml.Trail) (value : Yaml.Node) (d : Draft) :
    Yaml.Decoder Draft := do
  match key with
  | "seq" =>
    let seq ← value.word trail
    return { d with seq := some seq }
  | "port" =>
    let service ← value.text "a string" trail
    return { d with service := some service }
  | "method" =>
    let method ← value.text "a string" trail
    return { d with method := some method }
  | "input" =>
    let input ← Yaml.json depth trail value
    return { d with input := some input }
  | "output" =>
    let output ← Yaml.json depth trail value
    return { d with output := some output }
  | _ => return d

end Draft

def shape : Yaml.RecordShape Draft where
  name := "Interaction"
  knows key := ["seq", "port", "method", "input", "output"].contains key
  strict := none
  holds := Draft.holds
  field := Draft.field

def members (i : Interaction) : List (String × JsonValue) :=
  [("seq", .int i.seq), ("port", .str i.service), ("method", .str i.method), ("input", i.input),
    ("output", i.output)]

def decode : Nat → Yaml.Trail → Yaml.Node → Yaml.Decoder Interaction :=
  shape.decode Draft.blank Draft.complete

end Interaction

namespace Cassette

structure Draft where
  name : Option String
  recordedAt : Option Timestamp
  commit : Option String
  interactions : Option (List Interaction)

namespace Draft

def blank : Draft := ⟨none, none, none, none⟩

def complete (d : Draft) : Except String Cassette := do
  let name ← required "name" d.name
  let recordedAt ← required "recorded_at" d.recordedAt
  let commit ← required "commit" d.commit
  let interactions ← required "interactions" d.interactions
  .ok ⟨name, recordedAt, commit, interactions⟩

def holds (key : String) (d : Draft) : Bool :=
  match key with
  | "name" => d.name.isSome
  | "recorded_at" => d.recordedAt.isSome
  | "commit" => d.commit.isSome
  | "interactions" => d.interactions.isSome
  | _ => false

def time (trail : Yaml.Trail) : Yaml.Node → Yaml.Decoder Timestamp :=
  Yaml.Node.read trail fun
    | .scalar _ _ _ text =>
      match Timestamp.ofText text with
      | .ok t => pure t
      | .error fault => .mismatch fault.message
    | node => node.unexpected "an RFC 3339 formatted date and time string"

def field (depth : Nat) (key : String) (trail : Yaml.Trail) (value : Yaml.Node) (d : Draft) :
    Yaml.Decoder Draft := do
  match key with
  | "name" =>
    let name ← value.text "a string" trail
    return { d with name := some name }
  | "recorded_at" =>
    let recordedAt ← time trail value
    return { d with recordedAt := some recordedAt }
  | "commit" =>
    let commit ← value.text "a string" trail
    return { d with commit := some commit }
  | "interactions" =>
    let interactions ← value.items Interaction.decode depth trail
    return { d with interactions := some interactions }
  | _ => return d

end Draft

def shape : Yaml.RecordShape Draft where
  name := "Cassette"
  knows key := ["name", "recorded_at", "commit", "interactions"].contains key
  strict := none
  holds := Draft.holds
  field := Draft.field

def decode : Nat → Yaml.Trail → Yaml.Node → Yaml.Decoder Cassette :=
  shape.decode Draft.blank Draft.complete

def render (c : Cassette) : String :=
  Yaml.printDocument [("name", .str c.name), ("recorded_at", .str c.recordedAt.render),
    ("commit", .str c.commit), ("interactions", .arr (c.interactions.map (.obj ·.members)))]

def ofText : String → Except String Cassette := Yaml.decodeText decode

end Cassette

end ProjectOutline
