import ProjectOutline.Recorder
import ProjectOutline.Timestamp

/-!
What a run needs from the machine it runs on, beside its store: the time, the environment and the
place where it was started. A host gives all this in a monad of its own, so that the same program
can run on a machine and on a model of one.
-/

namespace ProjectOutline

/-- The services of a machine. -/
structure Host (m : Type → Type) where
  /-- Answers a question about the files of the machine. -/
  answer : (c : Call) → m c.Answer
  say : Emission → m Unit
  here : m (Except String Path)
  /-- The absolute path without links that a path leads to. -/
  canonical? : Path → m (Option Path)
  setting? : String → m (Option String)
  now : m Timestamp
  /-- Makes a directory and those above it that are missing. -/
  makeDirectory : Path → m (Except String Unit)

namespace Host

variable {m : Type → Type} {α : Type}

/-- The host that passes on only those log records that a filter shows. -/
def filtered [Monad m] (h : Host m) (filter : Log.Filter) : Host m :=
  { h with
    say := fun
      | .log record => if filter.shows record then h.say (.log record) else pure ()
      | e => h.say e }

def run [Monad m] (h : Host m) : Script α → m α
  | .done a => pure a
  | .call c next => do
    let answer ← h.answer c
    h.run (next answer)
  | .emit e next => do
    h.say e
    h.run next

/-- Runs a script on a host and records its questions and answers. -/
def record [Monad m] (h : Host m) : Recorder → Script α → m (α × Recorder)
  | r, .done a => pure (a, r)
  | r, .call c next => do
    let answer ← h.answer c
    h.record (r.note c answer) (next answer)
  | r, .emit e next => do
    h.say e
    h.record r next

end Host

end ProjectOutline
