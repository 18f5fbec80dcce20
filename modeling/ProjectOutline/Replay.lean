import ProjectOutline.Cassette
import ProjectOutline.StoreCall

/-!
Answering from a cassette. The interactions of each service and method are served in their order,
whatever is asked of other ports and methods in between. A replayer that has nothing left to serve
breaks down, and the store that holds it stays broken from then on.
-/

namespace ProjectOutline

namespace Table

variable {κ β : Type} [DecidableEq κ]

def get? (key : κ) : List (κ × β) → Option β
  | [] => none
  | (k, value) :: rest => if k = key then some value else get? key rest

/-- Changes the value of a key. A key that is missing is added at the end, with the change of a
value to start from. -/
def update (key : κ) (start : β) (change : β → β) : List (κ × β) → List (κ × β)
  | [] => [(key, change start)]
  | (k, value) :: rest =>
    if k = key then (k, change value) :: rest
    else (k, value) :: update key start change rest

end Table

/-- Serves the interactions of a cassette. -/
structure Replayer where
  /-- The interactions of each service and method, in their order. -/
  queues : List ((String × String) × List Interaction)
  /-- How many interactions of each service and method were served. -/
  cursors : List ((String × String) × Nat)
deriving Repr, Inhabited

namespace Replayer

/-- Nothing is left for a service and a method. -/
inductive Exhausted where
  /-- The cassette has no interaction of this kind, only of others. -/
  | unknown (service method : String) (available : List (String × String))
  /-- All interactions of this kind were served. -/
  | consumed (service method : String) (count last : Nat)
deriving DecidableEq, Repr

def Exhausted.message : Exhausted → String
  | unknown service method available =>
    let pairs := (available.map fun pair => pair.1 ++ "::" ++ pair.2).mergeSort (· ≤ ·)
    "Cassette exhausted: no interactions recorded for port=" ++ Text.quote service ++ " method=" ++
      Text.quote method ++ ". Available port::method pairs: [" ++ ", ".intercalate pairs ++ "]"
  | consumed service method count last =>
    "Cassette exhausted: all " ++ toString count ++ " interactions for port=" ++
      Text.quote service ++
      " method=" ++ Text.quote method ++ " have been consumed. Last interaction was seq=" ++
      toString last ++ "."

/-- Adds an interaction to the queue of its service and method. -/
def enqueue (queues : List ((String × String) × List Interaction)) (i : Interaction) :
    List ((String × String) × List Interaction) :=
  Table.update (i.service, i.method) [] (· ++ [i]) queues

def ofInteractions (recorded : List Interaction) : Replayer :=
  let queues := recorded.foldl enqueue []
  ⟨queues, queues.map fun queue => (queue.1, 0)⟩

/-- How many interactions of a service and a method were served. -/
def cursor (r : Replayer) (track : String × String) : Nat := (Table.get? track r.cursors).getD 0

/-- Serves the next interaction of a service and a method. A cursor that is missing is put at the
beginning of its queue before it is read. -/
def next (r : Replayer) (service method : String) : Except Exhausted Interaction × Replayer :=
  match Table.get? (service, method) r.queues with
  | none => (.error (.unknown service method (r.queues.map Prod.fst)), r)
  | some queue =>
    let r := { r with cursors := Table.update (service, method) 0 id r.cursors }
    match queue[r.cursor (service, method)]? with
    | some interaction =>
      (.ok interaction,
        { r with cursors := Table.update (service, method) 0 (· + 1) r.cursors })
    | none =>
      (.error (.consumed service method queue.length
        ((queue.getLast?.map Interaction.seq).getD 0)), r)

/-- How many interactions are left, in all queues. -/
def remaining (r : Replayer) : Nat :=
  r.queues.foldr (fun queue left => queue.2.length - r.cursor queue.1 + left) 0

end Replayer

/-- A store that answers from a cassette. -/
structure Playback where
  replayer : Replayer
  /-- Whether the replayer broke down while it was asked. -/
  poisoned : Bool
deriving Repr, Inhabited

namespace Playback

def ofInteractions (recorded : List Interaction) : Playback := ⟨.ofInteractions recorded, false⟩

/-- Answers from the cassette; what a question asks for is not compared with what was recorded. -/
def store : Store Playback := fun c p =>
  if p.poisoned then (.error ⟨"replayer lock poisoned: PoisonError \x7b .. \x7d"⟩, p)
  else
    -- Breaking down here is for good; an output that cannot be read is told and no more.
    match p.replayer.next Call.service c.method with
    | (.error exhausted, replayer) => (.error ⟨exhausted.message⟩, ⟨replayer, true⟩)
    | (.ok interaction, replayer) => (c.answer interaction.output, { p with replayer := replayer })

/-- The store for the text of a cassette file, which may be unreadable. -/
def ofFile (path : Path) (content : Except String String) : Except String Playback :=
  match content with
  | .error reason => .error ("Failed to read cassette file " ++ path.text ++ ": " ++ reason)
  | .ok text =>
    match Cassette.ofText text with
    | .error reason => .error ("Failed to parse cassette file " ++ path.text ++ ": " ++ reason)
    | .ok cassette => .ok (ofInteractions cassette.interactions)

end Playback

end ProjectOutline
