import Mathlib.Data.List.Forall2
import ProjectOutline.Store

/-!
# Exchanges between a script and a store

`Script.exchanges` lists the questions of a run with their answers. It follows the same path as
`Script.run`, and together the two say all that a script does to a store: what it asks, what it is
answered, and what comes of it. A run of two scripts in a row is a run of the first and a run of the
second from where that ended (`run_bind_ok`, `run_bind`). A `Responder` is a store that never breaks
down; on it every run comes to a result. What a script asks may also be told without a store
(`Script.Asks`).
-/

namespace ProjectOutline

/-- A question and the answer to it. -/
structure Exchange where
  call : Call
  answer : call.Answer

/-- A store with states `σ` that answers every question. -/
abbrev Responder (σ : Type) := (c : Call) → σ → c.Answer × σ

/-- A responder as a store. -/
def Responder.store {σ : Type} (r : Responder σ) : Store σ :=
  fun c s => (.ok (r c s).1, (r c s).2)

namespace Script

variable {σ α β : Type}

/-- The exchanges of a run, in their order; a breakdown of the store ends them. -/
def exchanges (store : Store σ) : Script α → σ → List Exchange
  | .done _, _ => []
  | .call c next, s =>
    match store c s with
    | (.ok answer, s) => ⟨c, answer⟩ :: exchanges store (next answer) s
    | (.error _, _) => []
  | .emit _ next, s => exchanges store next s

theorem run_responder_ok (r : Responder σ) (script : Script α) (s : σ) :
    ∃ a, (script.run r.store s).result = .ok a := by
  induction script generalizing s with
  | done a => exact ⟨a, rfl⟩
  | call c next ih => exact ih (r c s).1 (r c s).2
  | emit e next ih => exact ih s

@[simp]
theorem exchanges_pure (store : Store σ) (a : α) (s : σ) :
    (pure a : Script α).exchanges store s = [] :=
  rfl

@[simp]
theorem exchanges_log (store : Store σ) (record : Log.Record) (s : σ) :
    (log record).exchanges store s = [] :=
  rfl

theorem exchanges_ask {store : Store σ} {c : Call} {answer : c.Answer} {s : σ}
    (h : ((ask c).run store s).result = .ok answer) :
    (ask c).exchanges store s = [⟨c, answer⟩] := by
  rw [ask, run] at h
  rw [ask, exchanges]
  rcases hstore : store c s with ⟨fault | given, after⟩
  · rw [hstore] at h
    cases h
  · rw [hstore] at h
    cases h
    rfl

/-- A script that came to a result: its first part did, the rest went on from there, and the
exchanges are those of the two parts. -/
theorem run_bind_ok {store : Store σ} {f : α → Script β} {b : β} (x : Script α) (s : σ)
    (h : ((x >>= f).run store s).result = .ok b) :
    ∃ a, (x.run store s).result = .ok a ∧
      ((f a).run store (x.run store s).state).result = .ok b ∧
      (x >>= f).exchanges store s =
        x.exchanges store s ++ (f a).exchanges store (x.run store s).state := by
  induction x generalizing s with
  | done a => exact ⟨a, rfl, h, rfl⟩
  | call c next ih =>
    change ((Script.call c fun answer => next answer >>= f).run store s).result = _ at h
    change ∃ a, _ ∧ _ ∧ (Script.call c fun answer => next answer >>= f).exchanges store s = _
    simp only [run, exchanges] at h ⊢
    rcases hstore : store c s with ⟨fault | answer, after⟩
    · rw [hstore] at h
      cases h
    · rw [hstore] at h
      obtain ⟨a, hresult, hrest, hexchanges⟩ := ih answer after h
      exact ⟨a, hresult, hrest, congrArg _ hexchanges⟩
  | emit e next ih => exact ih s h

/-- A script goes on where its first part ended. -/
theorem run_bind {store : Store σ} {x : Script α} {f : α → Script β} {a : α} {s : σ}
    (h : (x.run store s).result = .ok a) :
    ((x >>= f).run store s).result = ((f a).run store (x.run store s).state).result ∧
      ((x >>= f).run store s).state = ((f a).run store (x.run store s).state).state := by
  induction x generalizing s with
  | done value =>
    cases h
    exact ⟨rfl, rfl⟩
  | call c next ih =>
    change ((Script.call c fun answer => next answer >>= f).run store s).result = _ ∧
      ((Script.call c fun answer => next answer >>= f).run store s).state = _
    simp only [run] at h ⊢
    rcases hstore : store c s with ⟨fault | answer, after⟩
    · rw [hstore] at h
      cases h
    · rw [hstore] at h
      exact ih answer h
  | emit e next ih => exact ih h

/-! ## Runs within a log -/

section Within

variable {store : Store σ} {log : List Exchange} {b : β} {s : σ}

/-- The two parts of a run whose exchanges are in a log. -/
theorem run_bind_within {x : Script α} {f : α → Script β}
    (h : ((x >>= f).run store s).result = .ok b) (hlog : (x >>= f).exchanges store s ⊆ log) :
    ∃ a after, (x.run store s).result = .ok a ∧ x.exchanges store s ⊆ log ∧
      ((f a).run store after).result = .ok b ∧ (f a).exchanges store after ⊆ log := by
  obtain ⟨a, hx, hf, hexchanges⟩ := run_bind_ok x s h
  rw [hexchanges, List.append_subset] at hlog
  exact ⟨a, _, hx, hlog.1, hf, hlog.2⟩

theorem run_ask_within {c : Call} {f : c.Answer → Script β}
    (h : ((ask c >>= f).run store s).result = .ok b)
    (hlog : (ask c >>= f).exchanges store s ⊆ log) :
    ∃ answer after, ⟨c, answer⟩ ∈ log ∧ ((f answer).run store after).result = .ok b ∧
      (f answer).exchanges store after ⊆ log := by
  obtain ⟨answer, after, hask, hasked, hf, hrest⟩ := run_bind_within h hlog
  rw [exchanges_ask hask] at hasked
  exact ⟨answer, after, hasked List.mem_cons_self, hf, hrest⟩

/-- The results of a script for a list belong to its members, one to each. -/
theorem forall₂_of_run_forEach {R : α → β → Prop} {f : α → Script β} {as : List α} {bs : List β}
    (h : ((forEach f as).run store s).result = .ok bs)
    (hlog : (forEach f as).exchanges store s ⊆ log)
    (hstep : ∀ a ∈ as, ∀ b before, ((f a).run store before).result = .ok b →
      (f a).exchanges store before ⊆ log → R a b) :
    List.Forall₂ R as bs := by
  induction as generalizing bs s with
  | nil =>
    cases h
    exact .nil
  | cons a rest ih =>
    rw [forEach] at h hlog
    obtain ⟨first, after, hfirst, hasked, h, hlog⟩ := run_bind_within h hlog
    obtain ⟨others, after', hothers, hasked', h, hlog⟩ := run_bind_within h hlog
    cases h
    exact .cons (hstep a List.mem_cons_self first s hfirst hasked)
      (ih hothers hasked' fun a' ha' => hstep a' (List.mem_cons_of_mem _ ha'))

theorem exists_mem_of_forall₂ {R : α → β → Prop} {as : List α} {bs : List β}
    (h : List.Forall₂ R as bs) (hb : b ∈ bs) : ∃ a ∈ as, R a b := by
  induction h with
  | nil => cases hb
  | @cons a b' as' bs' hrel hrest ih =>
    rcases List.mem_cons.mp hb with rfl | hb
    · exact ⟨a, List.mem_cons_self, hrel⟩
    · obtain ⟨a', ha', hrel'⟩ := ih hb
      exact ⟨a', List.mem_cons_of_mem _ ha', hrel'⟩

end Within

/-! ## What a script can ask -/

/-- Whatever it is answered, a script asks only questions of a kind. -/
def Asks (kind : Call → Prop) : Script α → Prop
  | .done _ => True
  | .call c next => kind c ∧ ∀ answer, Asks kind (next answer)
  | .emit _ next => Asks kind next

section Asks

variable {kind : Call → Prop}

theorem asks_ask {c : Call} (h : kind c) : (ask c).Asks kind :=
  ⟨h, fun _ => trivial⟩

theorem Asks.bind {x : Script α} {f : α → Script β} (hx : x.Asks kind)
    (hf : ∀ a, (f a).Asks kind) : (x >>= f).Asks kind := by
  induction x with
  | done a => exact hf a
  | call c next ih => exact ⟨hx.1, fun answer => ih answer (hx.2 answer)⟩
  | emit e next ih => exact ih hx

theorem asks_forEach {f : α → Script β} (hf : ∀ a, (f a).Asks kind) (as : List α) :
    (forEach f as).Asks kind := by
  induction as with
  | nil => trivial
  | cons a rest ih => exact (hf a).bind fun _ => ih.bind fun _ => trivial

theorem Asks.of_mem_exchanges {store : Store σ} {script : Script α} {s : σ} {x : Exchange}
    (h : script.Asks kind) (hx : x ∈ script.exchanges store s) : kind x.call := by
  induction script generalizing s with
  | done a => cases hx
  | call c next ih =>
    rw [exchanges] at hx
    rcases hstore : store c s with ⟨fault | answer, after⟩
    · rw [hstore] at hx
      cases hx
    · rw [hstore] at hx
      rcases List.mem_cons.mp hx with rfl | hx
      · exact h.1
      · exact ih answer (h.2 answer) hx
  | emit e next ih => exact ih h hx

end Asks

end Script

end ProjectOutline
