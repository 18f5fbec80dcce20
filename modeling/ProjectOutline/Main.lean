import Std.Time.DateTime.Timestamp
import ProjectOutline.FileTree
import ProjectOutline.Program
import ProjectOutline.Source.Parse

/-!
The program on a machine: questions about files go to its file system, and what is said goes to its
standard streams.
-/

namespace ProjectOutline.Machine

/-- The text of a system error number, where it is known. -/
def errorText? : Nat → Option String
  | 2 => some Refusal.notFound.message
  | 13 => some "Permission denied (os error 13)"
  | 17 => some Refusal.alreadyExists.message
  | 20 => some Refusal.notDirectory.message
  | 21 => some Refusal.isDirectory.message
  | 36 => some Refusal.nameTooLong.message
  | 40 => some Refusal.tooManyLinks.message
  | _ => none

def reason (e : IO.Error) : String :=
  let number? : Option UInt32 :=
    match e with
    | .noFileOrDirectory _ code _ => some code
    | .alreadyExists _ code _ | .permissionDenied _ code _ | .inappropriateType _ code _
    | .invalidArgument _ code _ | .resourceExhausted _ code _ | .noSuchThing _ code _ => some code
    | .otherError code _ | .unsupportedOperation code _ | .illegalOperation code _
    | .unsatisfiedConstraints code _ => some code
    | _ => none
  (number?.bind fun code => errorText? code.toNat).getD (toString e)

/-- The result of an action, with the text of its error. -/
def attempt {α : Type} (action : IO α) : IO (Except String α) := do
  try return .ok (← action) catch e => return .error (reason e)

def holds {α : Type} (action : IO α) (test : α → Bool) : IO Bool := do
  match ← attempt action with
  | .ok a => return test a
  | .error _ => return false

def kindOf (path : Path) : IO IO.FS.FileType := do
  if path.text = "" then throw (.noFileOrDirectory "" 2 "")
  return (← ((← IO.currentDir) / path.text).metadata).type

def isDir (path : Path) : IO Bool :=
  holds (kindOf path) fun
    | .dir => true
    | _ => false

/-- The entries of a directory, sorted by the bytes of their names. -/
def entries (path : Path) : IO (List IO.FS.DirEntry) := do
  if path.text = "" then throw (.noFileOrDirectory "" 2 "")
  let found ← ((← IO.currentDir) / path.text).readDir
  return found.toList.mergeSort fun a b => bytesLe (bytesOf a.fileName) (bytesOf b.fileName)

partial def filesBelow (dir : Path) (skip : List String) : IO (List Path) := do
  let found ← (← entries dir).mapM fun entry => do
    let inner := dir.join ⟨entry.fileName⟩
    if FileTree.isHidden entry.fileName then return []
    else
      match (← entry.path.symlinkMetadata).type with
      | .dir => if skip.contains entry.fileName then return [] else filesBelow inner skip
      | .file => return [inner]
      | _ => return []
  return found.flatten

def readText (path : Path) : IO (Except String String) := do
  match ← attempt (IO.FS.readBinFile path.text) with
  | .ok bytes =>
    match String.fromUTF8? bytes with
    | some text => return .ok text
    | none => return .error Refusal.notText.message
  | .error text => return .error text

def writeText (path : Path) (contents : String) : IO Unit := do
  match path.parent? with
  | some parent => if parent.text ≠ "" then IO.FS.createDirAll parent.text
  | none => pure ()
  IO.FS.writeFile path.text contents

def answer : (c : Call) → IO c.Answer
  | .read path => readText path
  | .write path contents => attempt (writeText path contents)
  | .present path => holds (kindOf path) fun _ => true
  | .isDir path => isDir path
  | .list path => attempt do return (← entries path).map (·.fileName)
  | .walk root skip => do
    if ← isDir root then attempt (filesBelow root skip)
    else return .error ("not a directory: " ++ root.text)

def now : IO Timestamp := do
  let nanoseconds := (← Std.Time.Timestamp.now).toNanosecondsSinceUnixEpoch.val.toNat
  return .ofSeconds (nanoseconds / 1000000000) (nanoseconds % 1000000000)

def say : Emission → IO Unit
  | .out line => IO.println line
  | .err line => IO.eprintln line
  | .log record => do
    let time := (← now).render
    IO.eprintln (time ++ (if record.level.name.length < 5 then "  " else " ") ++ record.line)

def host : Host IO where
  answer := answer
  say := say
  here := attempt do return ⟨(← IO.currentDir).toString⟩
  canonical? path := do
    match ← attempt (IO.FS.realPath path.text) with
    | .ok real =>
      return if ← holds (kindOf path) (fun _ => true) then some ⟨real.toString⟩ else none
    | .error _ => return none
  setting? name := IO.getEnv name
  now := now
  makeDirectory path := attempt (IO.FS.createDirAll path.text)

end ProjectOutline.Machine

def main (args : List String) : IO UInt32 := do
  ProjectOutline.Program.exitStatus ProjectOutline.Machine.host ProjectOutline.Source.parser
    ((← IO.appPath).toString :: args)
