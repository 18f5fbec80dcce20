import ProjectOutline.Outline
import ProjectOutline.Parser
import ProjectOutline.Store

/-!
The outline of a source file: the file is read, parsed with the grammar of its extension, and its
declarations are extracted. A file with syntax errors yields what could be parsed; one that the
parser gives up yields a failure.
-/

namespace ProjectOutline

/-- The declarations of a source file and the language it is written in. -/
structure SourceOutline where
  language : Language
  declarations : List Declaration
deriving DecidableEq, Repr

namespace SourceOutline

def target : String := "exportmap::extract"

/-- Reads the outline of a file. A file that no grammar belongs to is not read. -/
def load (parser : Parser) (path : Path) : Script (Except Failure SourceOutline) := do
  match Grammar.ofPath? path with
  | none => return .error (.unsupportedFile path)
  | some _ =>
    match ← Script.ask (.read path) with
    | .error reason => return .error (.read path reason)
    | .ok text =>
      match parser.parse path text with
      | .error failure => return .error failure
      | .ok (language, parsed) =>
        if parsed.hasErrors then
          Script.log ⟨.debug, target, path.text ++ " has syntax errors; keeping what parsed", []⟩
        return .ok ⟨language, Outline.extract language parsed.root⟩

end SourceOutline

end ProjectOutline
