import ProjectOutline.Config
import ProjectOutline.Document
import ProjectOutline.Failure
import ProjectOutline.Store

/-!
The document in the store. Its generated region is brought up to date; it is written only if its
text changes, and a document that exists but cannot be read is left alone.
-/

namespace ProjectOutline.DocumentFile

def target : String := "exportmap::patch"

/-- The stored text of a document; nothing if it does not exist. -/
def load (path : Path) : Script (Except Failure (Option String)) := do
  if ← Script.ask (.present path) then
    match ← Script.ask (.read path) with
    | .ok text => return .ok (some text)
    | .error reason => return .error (.read path reason)
  else
    Script.log ⟨.info, target, "creating " ++ path.text, []⟩
    return .ok none

def save (path : Path) (outcome : Document.Outcome) : Script (Except Failure Document.Outcome) := do
  if outcome.changed then
    match ← Script.ask (.write path outcome.text) with
    | .ok _ => return .ok outcome
    | .error reason => return .error (.write path reason)
  else
    Script.log ⟨.info, target, path.text ++ " is up to date", []⟩
    return .ok outcome

def update (path : Path) (generated : String) (config : Config) :
    Script (Except Failure Document.Outcome) := do
  match ← load path with
  | .error failure => return .error failure
  | .ok existing =>
    let current := existing.getD config.scaffold
    if (config.markers.locate current.toList).isNone then
      Script.log ⟨.debug, target, "generated region not found; appending", []⟩
    save path (Document.patch existing generated config.markers config.scaffold)

end ProjectOutline.DocumentFile
