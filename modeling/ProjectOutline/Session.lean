import ProjectOutline.Host
import ProjectOutline.Repository

/-!
Recording sessions. A session owns a new directory whose name is the time at which it was started;
when it is finished, the cassette of the run is written there.
-/

namespace ProjectOutline

/-- A recording session. -/
structure Session where
  dir : Path
  name : String
  commit : String
deriving DecidableEq, Repr

namespace Session

variable {m : Type → Type} [Monad m]

/-- The part of the program that these log records name. -/
def target : String := "exportmap::cassette::session"

def cassettePath (s : Session) : Path := s.dir.join ⟨"fs.cassette.yaml"⟩

/-- The commit of a project, or a word for an unknown one. -/
def commitOf (h : Host m) (project : Path) : m String := do
  let place := if project.text = "" then ⟨"."⟩ else project
  let commit? ← if ← h.answer (.isDir place) then
      match ← h.canonical? place with
      | some dir => h.run (Repository.commit? dir)
      | none => pure none
    else pure none
  match commit? with
  | some commit => return commit
  | none =>
    h.say (.log ⟨.warn, target,
      "could not read git commit hash of " ++ project.text ++ ", using 'unknown'", []⟩)
    return "unknown"

def start (h : Host m) (base project : Path) : m (Except String Session) := do
  let stamp := (← h.now).stamp
  let dir := base.join ⟨stamp⟩
  if ← h.answer (.present dir) then
    return .error ("Cassette directory already exists: " ++ dir.text)
  else
    match ← h.makeDirectory dir with
    | .error reason => return .error ("Failed to create cassette directory: " ++ reason)
    | .ok _ => return .ok ⟨dir, stamp ++ "-fs", ← commitOf h project⟩

/-- The interactions of a recorder that nobody else holds. -/
def release (shared : Bool) (r : Recorder) : Except String (List Interaction) :=
  if shared then .error "Recording adapter for fs still has references"
  else if r.poisoned then
    .error "Recorder lock for fs poisoned: poisoned lock: another task failed inside"
  else .ok r.interactions

def finish (h : Host m) (s : Session) (shared : Bool) (r : Recorder) : m (Except String Path) := do
  match release shared r with
  | .error reason => return .error reason
  | .ok interactions =>
    h.say (.log ⟨.debug, target, "writing fs cassette",
      [("interactions", .plain (toString interactions.length))]⟩)
    let cassette : Cassette := ⟨s.name, ← h.now, s.commit, interactions⟩
    match ← h.answer (.write s.cassettePath cassette.render) with
    | .error reason => return .error ("Failed to write fs cassette: " ++ reason)
    | .ok _ => return .ok s.dir

end Session

end ProjectOutline
