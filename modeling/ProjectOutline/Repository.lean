import ProjectOutline.Store
import ProjectOutline.Text.Blank

/-!
The commit that a project is checked out at, read from the files of its repository: `HEAD` names a
commit or a reference, and a reference is a file of its own or a line of the packed references.
-/

namespace ProjectOutline.Repository

/-- The name of a commit at the start of a text, in lower case. -/
def commitName? (text : List Char) : Option String :=
  let name := (text.take 40).map Char.toLower
  let isHex (c : Char) : Bool := c.isDigit || ('a' ≤ c && c ≤ 'f')
  if name.length = 40 && name.all isHex && name.any (· ≠ '0') then some (String.ofList name)
  else none

/-- The reference that a text names. -/
def reference? (text : String) : Option String :=
  (Text.after? "ref:" text).map Text.trim

/-- Whether the text of a `HEAD` file is well formed. -/
def isHead (text : String) : Bool :=
  match reference? text with
  | some name => (Text.after? "refs/" name).isSome
  | none => (commitName? text.toList).isSome

def read? (path : Path) : Script (Option String) := do
  match ← Script.ask (.read path) with
  | .ok text => return some text
  | .error _ => return none

def isRepository (dir : Path) : Script Bool := do
  match ← read? (dir.join ⟨"HEAD"⟩) with
  | some text =>
    if isHead text then
      let objects ← Script.ask (.isDir (dir.join ⟨"objects"⟩))
      let refs ← Script.ask (.isDir (dir.join ⟨"refs"⟩))
      return objects && refs
    else return false
  | none => return false

/-- The directory that a file in place of a repository names. -/
def linked? (dir : Path) : Script (Option Path) := do
  match ← read? (dir.join ⟨".git"⟩) with
  | some text => return (Text.after? "gitdir:" text).map fun name => dir.join ⟨Text.trim name⟩
  | none => return none

/-- The repository of the first of some directories that has one. -/
def find? : List Path → Script (Option Path)
  | [] => return none
  | dir :: above => do
    let inner := dir.join ⟨".git"⟩
    if ← isRepository inner then return some inner
    else
      match ← linked? dir with
      | some other => if ← isRepository other then return some other else return none
      | none => if ← isRepository dir then return some dir else find? above

/-- The commit of a reference among the packed ones. -/
def packed? (name : String) (text : String) : Option String :=
  (Text.split '\n' text).findSome? fun line =>
    match commitName? line.toList, line.toList.drop 40 with
    | some commit, ' ' :: rest =>
      if Text.trim (String.ofList rest) = name then some commit else none
    | _, _ => none

/-- The commit that a text names, directly or through at most `depth` references. -/
def resolve? (repository : Path) : Nat → String → Script (Option String)
  | 0, _ => return none
  | depth + 1, text =>
    match reference? text with
    | some name => do
      match ← read? (repository.join ⟨name⟩) with
      | some text => resolve? repository depth text
      | none =>
        match ← read? (repository.join ⟨"packed-refs"⟩) with
        | some packed => return packed? name packed
        | none => return none
    | none =>
      return if (Text.trim text).length = 40 then commitName? text.toList else none

/-- The commit of the project in a directory, given by its absolute path. -/
def commit? (dir : Path) : Script (Option String) := do
  match ← find? dir.ancestors with
  | some repository =>
    match ← read? (repository.join ⟨"HEAD"⟩) with
    | some text => resolve? repository 5 text
    | none => return none
  | none => return none

end ProjectOutline.Repository
