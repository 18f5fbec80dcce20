import ProjectOutline.Log
import ProjectOutline.Path

/-!
The boundary to the files of a project. A `Script` is a program that asks a store one question after
another and goes on with the answers; it may also write log records and lines. A `Store` answers the
questions from a state of its own. The same script can so be run on a tree of files, on a recording,
or on anything else that answers.
-/

namespace ProjectOutline

/-- A question to a store. -/
inductive Call where
  /-- The text of a file. -/
  | read (path : Path)
  /-- Stores a text in a file and makes the directories above it. -/
  | write (path : Path) (contents : String)
  | present (path : Path)
  | isDir (path : Path)
  /-- The names in a directory, sorted. -/
  | list (path : Path)
  /-- The regular files below a directory, sorted, without hidden entries and without the contents
  of the directories whose names are given. -/
  | walk (root : Path) (skip : List String)
deriving DecidableEq, Repr

/-- What a store answers: a failure is told by its text. -/
abbrev Call.Answer : Call → Type
  | .read _ => Except String String
  | .write _ _ => Except String Unit
  | .present _ => Bool
  | .isDir _ => Bool
  | .list _ => Except String (List String)
  | .walk _ _ => Except String (List Path)

/-- What a program says beside its result. -/
inductive Emission where
  | log (record : Log.Record)
  | out (line : String)
  | err (line : String)
deriving DecidableEq, Repr

/-- A program that asks a store. -/
inductive Script (α : Type) where
  | done (value : α)
  | call (c : Call) (next : c.Answer → Script α)
  | emit (e : Emission) (next : Script α)

namespace Script

variable {α β : Type}

def bind : Script α → (α → Script β) → Script β
  | done a, f => f a
  | call c next, f => call c fun answer => bind (next answer) f
  | emit e next, f => emit e (bind next f)

instance : Monad Script where
  pure := done
  bind := bind

def ask (c : Call) : Script c.Answer := call c done

def log (record : Log.Record) : Script Unit := emit (.log record) (done ())

def print (line : String) : Script Unit := emit (.out line) (done ())

def printError (line : String) : Script Unit := emit (.err line) (done ())

/-- Runs a script for each member of a list and keeps the results. -/
def forEach (f : α → Script β) : List α → Script (List β)
  | [] => done []
  | a :: rest => do
    let b ← f a
    let bs ← forEach f rest
    return b :: bs

end Script

/-- A breakdown of a store: it gives no answer at all. -/
structure Fault where
  message : String
deriving DecidableEq, Repr

/-- A store with states `σ`. -/
abbrev Store (σ : Type) := (c : Call) → σ → Except Fault c.Answer × σ

/-- What became of a script. -/
structure Run (σ α : Type) where
  result : Except Fault α
  state : σ
  emissions : List Emission

def Script.run {σ α : Type} (store : Store σ) : Script α → σ → Run σ α
  | .done a, s => ⟨.ok a, s, []⟩
  | .call c next, s =>
    match store c s with
    | (.ok answer, s) => run store (next answer) s
    | (.error fault, s) => ⟨.error fault, s, []⟩
  | .emit e next, s =>
    let r := run store next s
    { r with emissions := e :: r.emissions }

end ProjectOutline
