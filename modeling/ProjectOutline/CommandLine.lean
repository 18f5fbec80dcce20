import ProjectOutline.Path
import ProjectOutline.Text.Blank
import ProjectOutline.Text.Search
import ProjectOutline.Text.Similarity

/-!
The command line. Arguments are read from left to right. An option that takes a value waits for it
until the next argument shows that none comes; everything behind `--` is a path. The first mistake
ends the reading, and so does a request for help or for the version.
-/

namespace ProjectOutline.CommandLine

inductive Argument where
  | paths
  | root
  | output
  | dryRun
  | verbose
  | help
  | version
deriving DecidableEq, Repr

namespace Argument

/-- The long names, in the order of the help text. -/
def longNames : List (String × Argument) :=
  [("root", root), ("output", output), ("dry-run", dryRun), ("verbose", verbose), ("help", help),
    ("version", version)]

def ofLong? (name : String) : Option Argument := longNames.lookup name

def ofShort? : Char → Option Argument
  | 'o' => some output
  | 'v' => some verbose
  | 'h' => some help
  | 'V' => some version
  | _ => none

def takesValue : Argument → Bool
  | root | output => true
  | _ => false

def text : Argument → String
  | paths => "<PATHS>"
  | root => "--root <DIR>"
  | output => "--output <FILE>"
  | dryRun => "--dry-run"
  | verbose => "--verbose..."
  | help => "--help"
  | version => "--version"

def flag (a : Argument) : String :=
  match longNames.find? (·.2 = a) with
  | some (name, _) => "--" ++ name
  | none => a.text

end Argument

/-- What a run is asked to do. -/
structure Invocation where
  /-- Directories to scan beside the configured ones, with commas between. -/
  paths : Option String
  /-- Where the search for the project root starts. -/
  root : Option String
  output : Option String
  dryRun : Bool
  /-- How many verbosity flags are set, at most 255. -/
  verbosity : Nat
deriving DecidableEq, Repr

/-- The directories of a list with commas between, without blanks and empty items. -/
def Invocation.included (i : Invocation) : List Path :=
  (((Text.split ',' (i.paths.getD "")).map Text.trim).filter (· ≠ "")).map Path.mk

inductive Mistake where
  /-- An argument is not known. It may be like a known one, or be meant as a path; `used` are the
  arguments that the usage line names. -/
  | unknown (text : String) (similar : Option Argument) (asPath : Bool) (used : List Argument)
  | missingValue (argument : Argument)
  | repeated (argument : Argument)
  | unneededValue (argument : Argument) (value : String) (used : List Argument)
deriving DecidableEq, Repr

/-- The usage line for some arguments; for none, the general one. -/
def usage (program : String) (used : List Argument) : String :=
  if used.isEmpty then "Usage: " ++ program ++ " [OPTIONS] [PATHS]"
  else
    let flags := (used.filter (· ≠ .paths)).eraseDups
    "Usage: " ++ program ++ String.join (flags.map fun a => " " ++ a.text) ++
      if used.contains .paths then " <PATHS>" else " [PATHS]"

namespace Mistake

def problem : Mistake → String
  | unknown text similar asPath _ =>
    "unexpected argument '" ++ text ++ "' found" ++
      (if similar.isSome || asPath then "\n" else "") ++
      (match similar with
      | some a => "\n  tip: a similar argument exists: '" ++ a.flag ++ "'"
      | none => "") ++
      if asPath then "\n  tip: to pass '" ++ text ++ "' as a value, use '-- " ++ text ++ "'" else ""
  | missingValue a => "a value is required for '" ++ a.text ++ "' but none was supplied"
  | repeated a => "the argument '" ++ a.text ++ "' cannot be used multiple times"
  | unneededValue a value _ =>
    "unexpected value '" ++ value ++ "' for '" ++ a.text ++ "' found; no more were expected"

def usageLine (program : String) : Mistake → String
  | unknown _ _ _ used => "\n\n" ++ usage program used
  | missingValue _ => ""
  | repeated _ => "\n\n" ++ usage program []
  | unneededValue _ _ used => "\n\n" ++ usage program used

def message (program : String) (m : Mistake) : String :=
  "error: " ++ m.problem ++ m.usageLine program ++
    "\n\nFor more information, try '--help'.\n"

end Mistake

/-- What becomes of a command line. -/
inductive Outcome where
  | run (invocation : Invocation)
  | help
  | version
  | mistake (m : Mistake)
deriving DecidableEq, Repr

/-- What has been read. -/
structure State where
  invocation : Invocation
  /-- The arguments so far, in the order in which they were last set. -/
  used : List Argument
  /-- An argument that waits for its value or has just got it. -/
  pending : Option (Argument × Option String)
deriving DecidableEq, Repr

namespace State

def start : State := ⟨⟨none, none, none, false, 0⟩, [], none⟩

/-- Puts an argument behind those used before, unless it is one of them. -/
def mark (s : State) (a : Argument) : State :=
  if s.used.contains a then s else { s with used := s.used ++ [a] }

/-- Sets the value of an argument that may stand once. Even a refused value leaves its mark. -/
def setValue (s : State) (a : Argument) (value : Option String) : State × Option Mistake :=
  match value with
  | none => (s, some (.missingValue a))
  | some v =>
    if s.used.contains a then ({ s with used := s.used.erase a }, some (.repeated a))
    else
      let s := s.mark a
      match a with
      | .paths => ({ s with invocation := { s.invocation with paths := some v } }, none)
      | .root =>
        if v = "" then (s, some (.missingValue a))
        else ({ s with invocation := { s.invocation with root := some v } }, none)
      | .output =>
        if v = "" then (s, some (.missingValue a))
        else ({ s with invocation := { s.invocation with output := some v } }, none)
      | _ => (s, none)

def settle (s : State) : State × Option Mistake :=
  match s.pending with
  | none => (s, none)
  | some (a, value) => { s with pending := none }.setValue a value

end State

/-- The end of the reading, or the state to go on with. -/
abbrev Step := Except Outcome State

def settled (s : State) : Step :=
  match s.settle with
  | (s, none) => .ok s
  | (_, some m) => .error (.mistake m)

def setFlag (s : State) (a : Argument) : Step := do
  let s ← settled s
  match a with
  | .dryRun =>
    if s.used.contains a then .error (.mistake (.repeated a))
    else .ok { s.mark a with invocation := { s.invocation with dryRun := true } }
  | .verbose =>
    let verbosity := min 255 (s.invocation.verbosity + 1)
    .ok { s with
      used := s.used.erase a ++ [a]
      invocation := { s.invocation with verbosity := verbosity } }
  | .help => .error .help
  | .version => .error .version
  | _ => .ok s

/-- Reads an option with the value attached to it, if there is one. -/
def setOption (s : State) (a : Argument) (attached : Option String) : Step := do
  let s ← settled s
  match attached with
  | some value =>
    match s.setValue a (some value) with
    | (s, none) => .ok s
    | (_, some m) => .error (.mistake m)
  | none => .ok { s with pending := some (a, none) }

/-- The known long name that is most like a word, if one is like it at all; of equals the last. -/
def similar? (word : String) : Option Argument :=
  let better (best : Option (Float × Argument)) (candidate : String × Argument) :
      Option (Float × Argument) :=
    let score := Text.similarity word candidate.1
    if 0.7 < score then
      match best with
      | some (top, _) => if score < top then best else some (score, candidate.2)
      | none => some (score, candidate.2)
    else best
  (Argument.longNames.foldl better none).map (·.2)

/-- The name and the attached value of a long argument. -/
def splitLong (body : List Char) : String × Option String :=
  match body.dropWhile (· ≠ '=') with
  | _ :: value => (String.ofList (body.takeWhile (· ≠ '=')), some (String.ofList value))
  | [] => (String.ofList body, none)

def readLong (s : State) (body : List Char) (rest : List String) : Step :=
  let (name, value) := splitLong body
  match Argument.ofLong? name with
  | some a =>
    if a.takesValue then setOption s a value
    else
      match value with
      | some v => .error (.mistake (.unneededValue a v (s.used ++ [a])))
      | none => setFlag s a
  | none =>
    let s := s.settle.1
    match similar? name with
    | some a =>
      .error (.mistake (.unknown ("--" ++ name) (some a) (rest.contains "--") (s.mark a).used))
    | none => .error (.mistake (.unknown ("--" ++ name) none true s.used))

def readShort (s : State) : List Char → Step
  | [] => .ok s
  | c :: rest =>
    match Argument.ofShort? c with
    | some a =>
      if a.takesValue then
        setOption s a
          (match rest with
          | [] => none
          | '=' :: value => some (String.ofList value)
          | value => some (String.ofList value))
      else do readShort (← setFlag s a) rest
    | none => .error (.mistake (.unknown ("-" ++ String.singleton c) none true []))

/-- Reads a path; only one may stand on the command line. -/
def readPath (s : State) (text : String) (isFirst : Bool) : Step :=
  if isFirst then do
    let s ← settled s
    .ok { s with pending := some (.paths, some text) }
  else .error (.mistake (.unknown text none false []))

def State.awaits (s : State) : Bool :=
  match s.pending with
  | some (_, none) => true
  | _ => false

def State.supply (s : State) (value : String) : State :=
  { s with pending := s.pending.map fun (a, _) => (a, some value) }

/-- Reads the arguments. `trailing` tells whether `--` stands before them, `isFirst` whether no path
does. -/
def readAll (trailing isFirst : Bool) (s : State) : List String → Step
  | [] => settled s
  | arg :: rest =>
    let path : Step := readPath s arg isFirst
    if trailing then do readAll true false (← path) rest
    else
      match arg.toList with
      | ['-', '-'] => readAll true isFirst s rest
      | '-' :: '-' :: body => do readAll false isFirst (← readLong s body rest) rest
      | '-' :: c :: body => do readAll false isFirst (← readShort s (c :: body)) rest
      | _ =>
        if s.awaits then readAll false isFirst (s.supply arg) rest
        else do readAll false false (← path) rest

def parse (args : List String) : Outcome :=
  match readAll false true .start args with
  | .ok s => .run s.invocation
  | .error outcome => outcome

def programName (arg : Option String) : String :=
  (arg.bind fun text => Path.fileName? ⟨text⟩).getD "exportmap"

def helpText (program : String) : String :=
  "Map the functions and classes of a Python/JavaScript project into a Markdown document\n\n" ++
    usage program [] ++ "\n\n" ++
    "Arguments:\n" ++
    "  [PATHS]  Comma-separated extra scan roots, relative to the project root\n\n" ++
    "Options:\n" ++
    "      --root <DIR>     Directory to start the project-root search from " ++
    "[default: current directory]\n" ++
    "  -o, --output <FILE>  Target document, relative to the project root\n" ++
    "      --dry-run        Print the generated region instead of patching the document\n" ++
    "  -v, --verbose...     Increase log verbosity (-v info, -vv debug, -vvv trace)\n" ++
    "  -h, --help           Print help\n" ++
    "  -V, --version        Print version\n"

def versionText : String := "exportmap 0.1.0\n"

end ProjectOutline.CommandLine
