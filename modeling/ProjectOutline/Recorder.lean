import ProjectOutline.Cassette
import ProjectOutline.StoreCall

/-!
Recording what a store is asked. The store under a recorder answers as before; each question and its
answer becomes an interaction, numbered in the order of the questions.
-/

namespace ProjectOutline

/-- The interactions of a recording. -/
structure Recorder where
  interactions : List Interaction
  /-- Whether a task failed inside the recorder; it keeps nothing from then on. -/
  poisoned : Bool
deriving Repr, Inhabited

namespace Recorder

def empty : Recorder := ⟨[], false⟩

/-- Adds an interaction under the next number. -/
def record (r : Recorder) (service method : String) (input output : JsonValue) : Recorder :=
  if r.poisoned then r
  else
    let next : Interaction := ⟨r.interactions.length, service, method, input, output⟩
    { r with interactions := r.interactions ++ [next] }

def note (r : Recorder) (c : Call) (answer : c.Answer) : Recorder :=
  r.record Call.service c.method c.input (c.output answer)

/-- A store that records what it is asked. A breakdown of the store below is not recorded. -/
def store {σ : Type} (inner : Store σ) : Store (σ × Recorder) := fun c (s, r) =>
  match inner c s with
  | (.ok answer, s) => (.ok answer, (s, r.note c answer))
  | (.error fault, s) => (.error fault, (s, r))

end Recorder

end ProjectOutline
