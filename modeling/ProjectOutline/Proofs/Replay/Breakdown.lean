import ProjectOutline.Proofs.Replay.Outputs
import ProjectOutline.Proofs.Replay.Tracks

/-!
# How a playback breaks down

A playback can fail in two ways. A question whose track is used up breaks the replayer while it is
asked: nothing is served, and no later question is answered, whatever is left of its own track. A
truth value that is none fails only behind the replayer: it has taken its interaction like any other
answer, and the next question finds the playback as sound as before.

`Store.attempts` asks a list of questions and goes on after a failure. The state after the first `i`
questions is known in both cases: up to the first question whose track is used up, every question
has taken one interaction (`stateAfter_take_sound`), and from there on the state stays as it is
(`stateAfter_take_broken`). The answers are read off these states, and each is what the output of
its interaction tells (`Call.Tells`).
-/

namespace ProjectOutline

/-! ## Questions one after another -/

/-- A question and what a store made of it: an answer or a breakdown. -/
structure Attempt where
  call : Call
  result : Except Fault call.Answer

namespace Store

variable {σ : Type}

/-- Asks some questions in a row, also behind one that the store broke down at. -/
def attempts (store : Store σ) : List Call → σ → List Attempt
  | [], _ => []
  | c :: rest, s => ⟨c, (store c s).1⟩ :: attempts store rest (store c s).2

/-- The state of a store after some questions. -/
def stateAfter (store : Store σ) (calls : List Call) (s : σ) : σ :=
  calls.foldl (fun s c => (store c s).2) s

theorem map_call_attempts (store : Store σ) (calls : List Call) (s : σ) :
    (attempts store calls s).map Attempt.call = calls := by
  induction calls generalizing s with
  | nil => rfl
  | cons c rest ih => simp [attempts, ih]

/-- A question is put to the state that the questions before it have left. -/
theorem getElem?_attempts {store : Store σ} {calls : List Call} {i : Nat} {c : Call}
    (h : calls[i]? = some c) (s : σ) :
    (attempts store calls s)[i]? =
      some ⟨c, (store c (stateAfter store (calls.take i) s)).1⟩ := by
  induction calls generalizing i s with
  | nil => simp at h
  | cons first rest ih =>
    cases i with
    | zero =>
      simp only [List.getElem?_cons_zero, Option.some.injEq] at h
      subst h
      simp [attempts, stateAfter]
    | succ i =>
      simp only [List.getElem?_cons_succ] at h
      simp only [attempts, List.getElem?_cons_succ, List.take_succ_cons]
      exact ih h (store first s).2

theorem stateAfter_take_succ {store : Store σ} {calls : List Call} {i : Nat} {c : Call}
    (h : calls[i]? = some c) (s : σ) :
    stateAfter store (calls.take (i + 1)) s =
      (store c (stateAfter store (calls.take i) s)).2 := by
  simp [stateAfter, List.take_add_one, h]

end Store

/-- The track that a question is answered from. -/
def Call.track (c : Call) : String × String := (Call.service, c.method)

theorem Replayer.Exhausted.message_begins (e : Replayer.Exhausted) :
    "Cassette exhausted: ".toList <+: e.message.toList := by
  unfold message
  cases e with
  | unknown service method available =>
    have hlead : "Cassette exhausted: ".toList <+:
        "Cassette exhausted: no interactions recorded for port=".toList := by decide
    simp only [String.toList_append, List.append_assoc]
    exact hlead.trans (List.prefix_append _ _)
  | consumed service method count last =>
    have hlead : "Cassette exhausted: ".toList <+: "Cassette exhausted: all ".toList := by decide
    simp only [String.toList_append, List.append_assoc]
    exact hlead.trans (List.prefix_append _ _)

namespace Playback

variable {recorded : List Interaction} {calls : List Call}

/-! ## Used-up tracks -/

/-- How many of the questions before a position have the method of a question. -/
def earlier (calls : List Call) (i : Nat) (c : Call) : Nat :=
  (calls.take i).countP (·.method = c.method)

/-- The question at a position finds nothing left of its track. -/
def UsedUp (recorded : List Interaction) (calls : List Call) (i : Nat) : Prop :=
  ∃ c ∈ calls[i]?, (Replayer.trackOf recorded c.track).length ≤ earlier calls i c

/-- The question at a position is the first that finds nothing left of its track. -/
def FirstUsedUp (recorded : List Interaction) (calls : List Call) (j : Nat) : Prop :=
  UsedUp recorded calls j ∧ ∀ k < j, ¬ UsedUp recorded calls k

instance (recorded : List Interaction) (calls : List Call) (i : Nat) :
    Decidable (UsedUp recorded calls i) :=
  inferInstanceAs (Decidable (∃ c ∈ calls[i]?, _))

instance (recorded : List Interaction) (calls : List Call) (j : Nat) :
    Decidable (FirstUsedUp recorded calls j) :=
  inferInstanceAs (Decidable (_ ∧ ∀ k < j, _))

theorem earlier_lt {i : Nat} {c : Call} (hget : calls[i]? = some c)
    (h : ¬ UsedUp recorded calls i) :
    earlier calls i c < (Replayer.trackOf recorded c.track).length := by
  by_contra hnone
  exact h ⟨c, hget, Nat.le_of_not_lt hnone⟩

theorem FirstUsedUp.lt_length {j : Nat} (h : FirstUsedUp recorded calls j) : j < calls.length := by
  obtain ⟨⟨c, hget, -⟩, -⟩ := h
  exact (List.getElem?_eq_some_iff.mp hget).1

theorem count_track (calls : List Call) (c : Call) :
    (calls.map Call.track).count c.track = calls.countP (·.method = c.method) := by
  rw [List.count, List.countP_map]
  apply List.countP_congr
  intro other _
  simp [Call.track]

/-! ## One question -/

/-- A playback that has answered some questions, and has broken down behind them or not. -/
def played (recorded : List Interaction) (past : List Call) (broken : Bool) : Playback :=
  ⟨.settled recorded (past.map Call.track), broken⟩

/-- The answer is that of the next interaction, and also one that fails takes it. -/
theorem store_sound {past : List Call} {c : Call} {interaction : Interaction}
    (h : (Replayer.trackOf recorded c.track)[past.countP (·.method = c.method)]? =
      some interaction) :
    store c (played recorded past false) =
      (c.answer interaction.output, played recorded (past ++ [c]) false) := by
  have hnext := Replayer.next_settled recorded (past.map Call.track) c.track
  rw [count_track, Replayer.reply_eq_ok_iff.mpr h] at hnext
  have hnext' : (played recorded past false).replayer.next Call.service c.method = _ := hnext
  simp only [store, hnext']
  simp [played]

/-- A used-up track breaks the playback, and no cursor moves. -/
theorem store_used_up {past : List Call} {c : Call}
    (h : (Replayer.trackOf recorded c.track).length ≤ past.countP (·.method = c.method)) :
    ∃ e, Replayer.reply recorded c.track (past.countP (·.method = c.method)) = .error e ∧
      store c (played recorded past false) = (.error ⟨e.message⟩, played recorded past true) := by
  cases hreply : Replayer.reply recorded c.track (past.countP (·.method = c.method)) with
  | ok interaction =>
    have hlt := (List.getElem?_eq_some_iff.mp (Replayer.reply_eq_ok_iff.mp hreply)).1
    omega
  | error e =>
    have hnext := Replayer.next_settled recorded (past.map Call.track) c.track
    rw [count_track, hreply,
      Replayer.settled_concat_of_length_le (by rw [count_track]; exact h)] at hnext
    have hnext' : (played recorded past false).replayer.next Call.service c.method = _ := hnext
    refine ⟨e, rfl, ?_⟩
    simp only [store, hnext']
    simp [played]

theorem store_broken (past : List Call) (c : Call) :
    store c (played recorded past true) =
      (.error ⟨"replayer lock poisoned: PoisonError \x7b .. \x7d"⟩, played recorded past true) := by
  simp [store, played]

/-! ## All questions -/

/-- Up to the first question whose track is used up, each has taken an interaction. -/
theorem stateAfter_take_sound {i : Nat} (hi : i ≤ calls.length)
    (h : ∀ k < i, ¬ UsedUp recorded calls k) :
    Store.stateAfter store (calls.take i) (ofInteractions recorded) =
      played recorded (calls.take i) false := by
  induction i with
  | zero =>
    simp only [List.take_zero, played, List.map_nil, Replayer.settled_nil]
    rfl
  | succ i ih =>
    have hget := List.getElem?_eq_getElem (Nat.lt_of_succ_le hi)
    have hleft := earlier_lt hget (h i (Nat.lt_succ_self i))
    rw [Store.stateAfter_take_succ hget, ih (by omega) (fun k hk => h k (by omega)),
      store_sound (List.getElem?_eq_getElem hleft)]
    simp

/-- Behind that question nothing changes any more. -/
theorem stateAfter_take_broken {i j : Nat} (h : FirstUsedUp recorded calls j) (hj : j < i)
    (hi : i ≤ calls.length) :
    Store.stateAfter store (calls.take i) (ofInteractions recorded) =
      played recorded (calls.take j) true := by
  induction i with
  | zero => omega
  | succ i ih =>
    by_cases hji : j < i
    · have hget := List.getElem?_eq_getElem (Nat.lt_of_succ_le hi)
      rw [Store.stateAfter_take_succ hget, ih hji (by omega), store_broken]
    · obtain rfl : j = i := by omega
      obtain ⟨⟨c, hget, hused⟩, hfirst⟩ := h
      obtain ⟨e, -, hstore⟩ := store_used_up hused
      rw [Store.stateAfter_take_succ hget, stateAfter_take_sound (by omega) hfirst, hstore]

/-- What is left after questions none of which found its track used up. -/
theorem remaining_take {i : Nat} (hi : i ≤ calls.length)
    (h : ∀ k < i, ¬ UsedUp recorded calls k) :
    (Replayer.settled recorded ((calls.take i).map Call.track)).remaining + i =
      recorded.length := by
  induction i with
  | zero =>
    have hall := Replayer.remaining_add_served recorded []
    simpa [Replayer.answers] using hall
  | succ i ih =>
    have hget := List.getElem?_eq_getElem (Nat.lt_of_succ_le hi)
    have hleft := earlier_lt hget (h i (Nat.lt_succ_self i))
    have hstep := Replayer.remaining_settled_concat recorded ((calls.take i).map Call.track)
      calls[i].track
    rw [count_track, if_pos (by exact Replayer.isOk_reply_iff.mpr hleft)] at hstep
    have hrest := ih (by omega) (fun k hk => h k (by omega))
    simp only [List.take_add_one, hget, Option.toList_some, List.map_append, List.map_singleton]
    omega

/-- What a playback makes of a list of questions. -/
structure BreaksOnce (recorded : List Interaction) (calls : List Call) (results : List Attempt)
    (last : Playback) : Prop where
  asked : results.map Attempt.call = calls
  /-- Up to the first question whose track is used up, each is answered with what the interaction of
  its track tells that has the number of earlier questions of its method. The answer may be a
  failure. -/
  served : ∀ i c, calls[i]? = some c → (∀ k ≤ i, ¬ UsedUp recorded calls k) →
    ∃ interaction, (Replayer.trackOf recorded c.track)[earlier calls i c]? = some interaction ∧
      results[i]? = some ⟨c, c.answer interaction.output⟩ ∧
      c.Tells interaction.output (c.answer interaction.output)
  /-- That question breaks the playback. -/
  exhausted : ∀ j c, FirstUsedUp recorded calls j → calls[j]? = some c →
    ∃ e, Replayer.reply recorded c.track (earlier calls j c) = .error e ∧
      "Cassette exhausted: ".toList <+: e.message.toList ∧
      results[j]? = some ⟨c, .error ⟨e.message⟩⟩
  /-- No question behind it is answered. -/
  poisoned : ∀ j, FirstUsedUp recorded calls j → ∀ i c, j < i → calls[i]? = some c →
    results[i]? = some ⟨c, .error ⟨"replayer lock poisoned: PoisonError \x7b .. \x7d"⟩⟩
  /-- The questions before it have taken an interaction each, and no other has. -/
  broken : ∀ j, FirstUsedUp recorded calls j →
    last.poisoned = true ∧ last.replayer.remaining + j = recorded.length
  /-- Without such a question, all have taken one and the playback is sound. -/
  unbroken : (∀ k, ¬ UsedUp recorded calls k) →
    last.poisoned = false ∧ last.replayer.remaining + calls.length = recorded.length

/-- **A playback breaks down once, and for good.** For every cassette and every list of questions,
asked by a caller that goes on after each failure: up to the first question whose track is used up,
every question is answered with what the interaction tells that comes next in its track, also behind
answers that failed. That question breaks the playback with its message, and every later one is
refused. -/
theorem playback_breaks_once (recorded : List Interaction) (calls : List Call) :
    BreaksOnce recorded calls (Store.attempts store calls (ofInteractions recorded))
      (Store.stateAfter store calls (ofInteractions recorded)) := by
  constructor
  case asked => exact Store.map_call_attempts store calls _
  case served =>
    intro i c hget hleft
    have hi := (List.getElem?_eq_some_iff.mp hget).1
    have hnext := List.getElem?_eq_getElem (earlier_lt hget (hleft i (Nat.le_refl i)))
    refine ⟨_, hnext, ?_, c.tells_answer _⟩
    rw [Store.getElem?_attempts hget,
      stateAfter_take_sound (by omega) (fun k hk => hleft k (by omega)), store_sound hnext]
  case exhausted =>
    intro j c hfirst hget
    have hj := hfirst.lt_length
    obtain ⟨⟨c', hget', hused⟩, hbefore⟩ := hfirst
    obtain rfl : c' = c := Option.some.inj (hget'.symm.trans hget)
    obtain ⟨e, hreply, hstore⟩ := store_used_up hused
    refine ⟨e, hreply, e.message_begins, ?_⟩
    rw [Store.getElem?_attempts hget, stateAfter_take_sound (by omega) hbefore, hstore]
  case poisoned =>
    intro j hfirst i c hji hget
    have hi := (List.getElem?_eq_some_iff.mp hget).1
    rw [Store.getElem?_attempts hget, stateAfter_take_broken hfirst hji (by omega), store_broken]
  case broken =>
    intro j hfirst
    have hstate := stateAfter_take_broken hfirst hfirst.lt_length (Nat.le_refl _)
    rw [List.take_length] at hstate
    rw [hstate]
    exact ⟨rfl, remaining_take (Nat.le_of_lt hfirst.lt_length) hfirst.2⟩
  case unbroken =>
    intro hleft
    have hstate := stateAfter_take_sound (Nat.le_refl _) (fun k _ => hleft k)
    have hremaining := remaining_take (Nat.le_refl _) (fun k _ => hleft k)
    rw [List.take_length] at hstate hremaining
    rw [hstate]
    exact ⟨rfl, hremaining⟩

/-- A cassette whose first flag is no truth value, with an interaction to spare. -/
def spoiled : List Interaction :=
  [⟨0, "fs", "exists", .null, .str "yes"⟩, ⟨1, "db", "exists", .null, .bool false⟩,
    ⟨2, "fs", "read_to_string", .null, .obj [("ok", .str "x")]⟩,
    ⟨3, "fs", "exists", .null, .bool true⟩,
    ⟨4, "fs", "list_dir", .null, .obj [("ok", .arr [.str "a", .str "b"])]⟩,
    ⟨5, "fs", "walk_files", .null, .obj [("err", .str "denied")]⟩,
    ⟨6, "fs", "is_dir", .null, .bool true⟩]

/-- Questions of which the last but one finds nothing left. -/
def insistent : List Call :=
  [.present ⟨"a"⟩, .read ⟨"a"⟩, .present ⟨"a"⟩, .list ⟨"."⟩, .walk ⟨"."⟩ [], .read ⟨"b"⟩,
    .isDir ⟨"a"⟩]

/-- What these questions come to. -/
def spoiledAttempts : List Attempt :=
  [⟨.present ⟨"a"⟩, .error ⟨"fs::exists: expected boolean output"⟩⟩,
    ⟨.read ⟨"a"⟩, .ok (.ok "x")⟩,
    ⟨.present ⟨"a"⟩, .ok true⟩,
    ⟨.list ⟨"."⟩, .ok (.ok ["a", "b"])⟩,
    ⟨.walk ⟨"."⟩ [], .ok (.error "denied")⟩,
    ⟨.read ⟨"b"⟩, .error ⟨"Cassette exhausted: all 1 interactions for port=\"fs\" " ++
      "method=\"read_to_string\" have been consumed. Last interaction was seq=2."⟩⟩,
    ⟨.isDir ⟨"a"⟩, .error ⟨"replayer lock poisoned: PoisonError \x7b .. \x7d"⟩⟩]

theorem playback_breaks_once_spoiled :
    FirstUsedUp spoiled insistent 5 ∧
      Store.attempts store insistent (ofInteractions spoiled) = spoiledAttempts ∧
      BreaksOnce spoiled insistent spoiledAttempts
        (Store.stateAfter store insistent (ofInteractions spoiled)) ∧
      (Store.stateAfter store insistent (ofInteractions spoiled)).replayer.remaining = 2 := by
  have hfirst : FirstUsedUp spoiled insistent 5 := by decide
  have hattempts : Store.attempts store insistent (ofInteractions spoiled) = spoiledAttempts := by
    rfl
  have h := playback_breaks_once spoiled insistent
  have hremaining := (h.broken 5 hfirst).2
  rw [hattempts] at h
  exact ⟨hfirst, hattempts, h, Nat.add_right_cancel hremaining⟩

end Playback

end ProjectOutline
