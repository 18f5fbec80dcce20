import ProjectOutline.Proofs.Store.Exchange

/-!
# Stores that do not change their answers

On a store whose answers depend on the question alone, a script has one outcome, whenever it is run
(`run_of_gives`). The outcome is computed along the script: that of two scripts in a row is the
outcome of the second on that of the first (`outcome_bind`), and scripts for the members of a list
do not affect each other (`outcome_forEach`).
-/

namespace ProjectOutline

/-- An answer to every question. -/
abbrev Answers := (c : Call) → c.Answer

/-- Whatever its state is, the responder gives these answers. -/
def Responder.Gives {σ : Type} (r : Responder σ) (answers : Answers) : Prop :=
  ∀ (c : Call) (s : σ), (r c s).1 = answers c

/-- The answers as a store without a state. -/
def Answers.responder (answers : Answers) : Responder Unit := fun c s => (answers c, s)

theorem Answers.responder_gives (answers : Answers) : answers.responder.Gives answers :=
  fun _ _ => rfl

namespace Script

variable {σ α β : Type}

/-- What a script comes to with these answers. -/
def outcome (answers : Answers) : Script α → α
  | .done a => a
  | .call c next => outcome answers (next (answers c))
  | .emit _ next => outcome answers next

theorem run_of_gives {r : Responder σ} {answers : Answers} (h : r.Gives answers)
    (script : Script α) (s : σ) :
    (script.run r.store s).result = .ok (script.outcome answers) := by
  induction script generalizing s with
  | done a => rfl
  | call c next ih =>
    have hrest := ih (r c s).1 (r c s).2
    rw [h c s] at hrest
    simpa only [run, Responder.store, h c s, outcome] using hrest
  | emit e next ih => exact ih s

section Outcome

variable (answers : Answers)

@[simp]
theorem outcome_pure (a : α) : (pure a : Script α).outcome answers = a := rfl

@[simp]
theorem outcome_ask (c : Call) : (ask c).outcome answers = answers c := rfl

@[simp]
theorem outcome_bind (x : Script α) (f : α → Script β) :
    (x >>= f).outcome answers = (f (x.outcome answers)).outcome answers := by
  induction x with
  | done a => rfl
  | call c next ih => exact ih (answers c)
  | emit e next ih => exact ih

@[simp]
theorem outcome_forEach (f : α → Script β) (as : List α) :
    (forEach f as).outcome answers = as.map fun a => (f a).outcome answers := by
  induction as with
  | nil => rfl
  | cons a rest ih => simp [forEach, ih]

end Outcome

end Script

end ProjectOutline
