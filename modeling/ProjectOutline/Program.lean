import ProjectOutline.CommandLine
import ProjectOutline.Generate
import ProjectOutline.Session

/-!
The program: it reads the command line, finds out where to start, and runs, with a recording session
around the run if the environment asks for one.
-/

namespace ProjectOutline.Program

variable {m : Type → Type} [Monad m]

/-- The variable of the environment that asks for a recording. -/
def recordVariable : String := "EXPORTMAP_RECORD"

/-- The variable of the environment that sets the log filter. -/
def logVariable : String := "RUST_LOG"

def optionsOf (invocation : CommandLine.Invocation) : Options where
  included := invocation.included
  output := invocation.output.map Path.mk
  dryRun := invocation.dryRun

/-- Runs inside a recording session. The recording is saved even if the run fails. -/
def recorded (h : Host m) (base start : Path) (script : Script (Except Failure Summary)) :
    m (Except Failure Unit) := do
  match ← Session.start h base start with
  | .error reason => return .error (.recording reason)
  | .ok session =>
    let (result, recorder) ← h.record .empty script
    match ← Session.finish h session false recorder with
    | .error reason => return .error (.recording reason)
    | .ok dir =>
      h.say (.err ("Recording saved to: " ++ dir.text))
      return result.map fun _ => ()

def dispatch (h : Host m) (parser : Parser) (invocation : CommandLine.Invocation) (start : Path) :
    m (Except Failure Unit) := do
  let script := Generate.run parser start (optionsOf invocation)
  match ← h.setting? recordVariable with
  | some base => recorded h ⟨base⟩ start script
  | none => return (← h.run script).map fun _ => ()

def invoke (h : Host m) (parser : Parser) (invocation : CommandLine.Invocation) :
    m (Except Failure Unit) := do
  let filter := Log.Filter.ofEnvironment (← h.setting? logVariable) invocation.verbosity
  let h := h.filtered filter
  match ← h.here with
  | .error reason => return .error (.read ⟨"."⟩ reason)
  | .ok here =>
    let start := (invocation.root.map fun root => here.join ⟨root⟩).getD here
    dispatch h parser invocation ((← h.canonical? start).getD start)

/-- Runs the program with its arguments, of which the first is its name. -/
def run (h : Host m) (parser : Parser) (args : List String) : m (Except Failure Unit) := do
  let program := CommandLine.programName args.head?
  match CommandLine.parse (args.drop 1) with
  | .run invocation => invoke h parser invocation
  | .help =>
    h.say (.out (Text.trimTail '\n' (CommandLine.helpText program)))
    return .ok ()
  | .version =>
    h.say (.out (Text.trimTail '\n' CommandLine.versionText))
    return .ok ()
  | .mistake mistake => return .error (.usage (mistake.message program))

/-- Runs the program and tells a failure; the result is the exit status. -/
def exitStatus (h : Host m) (parser : Parser) (args : List String) : m UInt32 := do
  match ← run h parser args with
  | .ok _ => return 0
  | .error failure =>
    h.say (.err failure.message)
    return 1

end ProjectOutline.Program
