import ProjectOutline.Document
import ProjectOutline.Failure
import ProjectOutline.Store
import ProjectOutline.Text.Blank
import ProjectOutline.Yaml.Decode

/-!
The configuration of a project: where its document stands, which markers delimit the generated
region, and what is scanned. It is read from a file in the project root; a missing or blank file
gives the defaults, and so does each key that the file leaves out.
-/

namespace ProjectOutline

/-- The configuration of a project. -/
structure Config where
  /-- The document, relative to the project root. -/
  output : Path
  markers : Markers
  /-- The text of a document that does not exist yet, if it is configured. -/
  bootstrap : Option String
  /-- Names of directories that are not scanned. -/
  skip : List String
  /-- Directories to scan beside the root. -/
  included : List Path
deriving DecidableEq, Repr

namespace Config

/-- The configuration of a project without a configuration file. -/
def standard : Config where
  output := ⟨".github/copilot-instructions.md"⟩
  markers := .standard
  bootstrap := none
  skip := ["node_modules", "dist", "build", "target", "__pycache__", "venv"]
  included := []

def fileName : Path := ⟨".exportmap.yaml"⟩

def target : String := "exportmap::config"

def scaffold (c : Config) : String := c.bootstrap.getD c.markers.scaffold

structure Draft where
  output : Option Path
  opening : Option String
  closing : Option String
  bootstrap : Option (Option String)
  skip : Option (List String)
  included : Option (List Path)
deriving DecidableEq, Repr

namespace Draft

def blank : Draft := ⟨none, none, none, none, none, none⟩

/-- Fills up with the defaults. -/
def complete (d : Draft) : Config where
  output := d.output.getD standard.output
  markers := ⟨d.opening.getD standard.markers.opening, d.closing.getD standard.markers.closing⟩
  bootstrap := d.bootstrap.getD standard.bootstrap
  skip := d.skip.getD standard.skip
  included := d.included.getD standard.included

def holds (key : String) (d : Draft) : Bool :=
  match key with
  | "output" => d.output.isSome
  | "begin_marker" => d.opening.isSome
  | "end_marker" => d.closing.isSome
  | "bootstrap" => d.bootstrap.isSome
  | "skip_dirs" => d.skip.isSome
  | "include" => d.included.isSome
  | _ => false

def field (depth : Nat) (key : String) (trail : Yaml.Trail) (value : Yaml.Node) (d : Draft) :
    Yaml.Decoder Draft := do
  match key with
  | "output" =>
    let text ← value.text "path string" trail
    return { d with output := some ⟨text⟩ }
  | "begin_marker" =>
    let text ← value.text "a string" trail
    return { d with opening := some text }
  | "end_marker" =>
    let text ← value.text "a string" trail
    return { d with closing := some text }
  | "bootstrap" =>
    let text ← value.text? "a string" trail
    return { d with bootstrap := some text }
  | "skip_dirs" =>
    let names ← value.items (fun _ => Yaml.Node.text "a string") depth trail
    return { d with skip := some names }
  | "include" =>
    let paths ← value.items (fun _ => Yaml.Node.text "path string") depth trail
    return { d with included := some (paths.map Path.mk) }
  | _ => return d

end Draft

def keys : List String :=
  ["output", "begin_marker", "end_marker", "bootstrap", "skip_dirs", "include"]

/-- The configuration as a record: unknown keys are refused. -/
def shape : Yaml.RecordShape Draft where
  name := "Config"
  knows key := keys.contains key
  strict := some keys
  holds := Draft.holds
  field := Draft.field

def decode : Nat → Yaml.Trail → Yaml.Node → Yaml.Decoder Config :=
  shape.decode Draft.blank fun d => .ok d.complete

/-- Refuses markers that cannot delimit a region. -/
def validate (c : Config) : Except String Config :=
  if Text.trim c.markers.opening = "" || Text.trim c.markers.closing = "" then
    .error "markers must not be empty"
  else if c.markers.opening = c.markers.closing then
    .error "begin_marker and end_marker must differ"
  else .ok c

def ofText (text : String) : Except String Config :=
  if Text.trim text = "" then .ok standard
  else do validate (← Yaml.decodeText decode text)

def load (root : Path) : Script (Except Failure Config) := do
  let path := root.join fileName
  if ← Script.ask (.present path) then
    match ← Script.ask (.read path) with
    | .error reason => return .error (.config path reason)
    | .ok text =>
      match ofText text with
      | .error reason => return .error (.config path reason)
      | .ok config =>
        Script.log ⟨.debug, target, "loaded " ++ path.text, []⟩
        return .ok config
  else return .ok standard

end Config

end ProjectOutline
