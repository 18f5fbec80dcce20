import Mathlib.Data.List.Induction
import ProjectOutline.Generate
import ProjectOutline.Proofs.Replay.Outputs
import ProjectOutline.Proofs.Replay.Tracks
import ProjectOutline.Proofs.Store.Exchange
import ProjectOutline.Recorder

/-!
# Replaying a recording

A recorder keeps one log of all questions; a replayer serves each method from a track of its own.
The two fit because the position of an interaction in its track is the number of earlier questions
of the same method (`store_afterwards`), and because every answer can be read back from its JSON
value (`Call.answer_output`).

A script may choose each question from all the answers before it. `run_recorded` and `run_replayed`
follow such a script by induction, with the exchanges that are over as the state of the recorder and
of the replayer.
-/

namespace ProjectOutline

/-! ## Recording -/

namespace Exchange

/-- The track that an exchange belongs to. -/
def track (x : Exchange) : String × String := (Call.service, x.call.method)

/-- An exchange under a number of a recording. -/
def interaction (seq : Nat) (x : Exchange) : Interaction where
  seq := seq
  service := Call.service
  method := x.call.method
  input := x.call.input
  output := x.call.output x.answer

/-- The interactions of a recording, numbered by their positions. -/
def recording (xs : List Exchange) : List Interaction := xs.mapIdx interaction

theorem length_recording (xs : List Exchange) : (recording xs).length = xs.length :=
  List.length_mapIdx

theorem recording_concat (xs : List Exchange) (x : Exchange) :
    recording (xs ++ [x]) = recording xs ++ [x.interaction xs.length] :=
  List.mapIdx_concat

end Exchange

namespace Recorder

variable {σ α : Type}

theorem note_exchange (past : List Exchange) (c : Call) (a : c.Answer) :
    (⟨Exchange.recording past, false⟩ : Recorder).note c a =
      ⟨Exchange.recording (past ++ [⟨c, a⟩]), false⟩ := by
  rw [Exchange.recording_concat, note, record]
  simp [Exchange.length_recording, Exchange.interaction]

/-- A recorder changes nothing for a script and keeps its exchanges. -/
theorem run_recorded (inner : Store σ) (script : Script α) (s : σ) (past : List Exchange) :
    script.run (store inner) (s, ⟨Exchange.recording past, false⟩) =
      ⟨(script.run inner s).result,
        ((script.run inner s).state,
          ⟨Exchange.recording (past ++ script.exchanges inner s), false⟩),
        (script.run inner s).emissions⟩ := by
  induction script generalizing s past with
  | done a => simp [Script.run, Script.exchanges]
  | call c next ih =>
    rw [Script.run, Script.run, Script.exchanges, store]
    cases inner c s with
    | mk result after =>
      cases result with
      | error fault => simp
      | ok answer =>
        dsimp only
        rw [note_exchange, ih, List.append_assoc, List.singleton_append]
  | emit e next ih =>
    rw [Script.run, Script.run, Script.exchanges, ih]

theorem exchanges_recorded (inner : Store σ) (script : Script α) (s : σ) (r : Recorder) :
    script.exchanges (store inner) (s, r) = script.exchanges inner s := by
  induction script generalizing s r with
  | done a => rfl
  | call c next ih =>
    rw [Script.exchanges, Script.exchanges, store]
    cases inner c s with
    | mk result after =>
      cases result with
      | error fault => rfl
      | ok answer =>
        dsimp only
        rw [ih]
  | emit e next ih => exact ih s r

end Recorder

/-! ## Replaying -/

/-- A track of a recording has as many interactions as there were exchanges of its method. -/
theorem Exchange.length_track_recording (xs : List Exchange) (key : String × String) :
    (Replayer.trackOf (recording xs) key).length = (xs.map track).count key := by
  induction xs using List.reverseRecOn with
  | nil => rfl
  | append_singleton xs x ih =>
    rw [recording_concat, Replayer.trackOf_concat, List.map_append, List.count_append, ← ih,
      List.map_singleton, List.count_singleton]
    by_cases hkey : key = x.track
    · rw [if_pos (by exact hkey), if_pos (by simp [hkey]), List.length_append,
        List.length_singleton]
    · rw [if_neg (by exact hkey), if_neg (by simpa using Ne.symm hkey), Nat.add_zero]

namespace Playback

variable {σ α : Type}

/-- A playback of a recording after some exchanges. -/
def afterwards (log past : List Exchange) : Playback where
  replayer := .settled (Exchange.recording log) (past.map Exchange.track)
  poisoned := false

/-- The next interaction of a method is the one that was recorded after the same exchanges. -/
theorem next_afterwards (past : List Exchange) (x : Exchange) (rest : List Exchange) :
    (afterwards (past ++ x :: rest) past).replayer.next Call.service x.call.method =
      (.ok (x.interaction past.length),
        (afterwards (past ++ x :: rest) (past ++ [x])).replayer) := by
  have htrack : Replayer.trackOf (Exchange.recording (past ++ x :: rest)) x.track =
      Replayer.trackOf (Exchange.recording past) x.track ++ x.interaction past.length ::
        Replayer.trackOf (rest.mapIdx fun i => Exchange.interaction (i + 1 + past.length))
          x.track := by
    rw [Replayer.trackOf, Exchange.recording, List.mapIdx_append, List.mapIdx_cons,
      List.filter_append, List.filter_cons_of_pos]
    · simp only [Nat.zero_add]
      rfl
    · simp [Exchange.interaction, Interaction.track, Exchange.track]
  have hreply : Replayer.reply (Exchange.recording (past ++ x :: rest)) x.track
      ((past.map Exchange.track).count x.track) = .ok (x.interaction past.length) := by
    rw [Replayer.reply_eq_ok_iff, htrack, ← Exchange.length_track_recording]
    simp
  have hnext := Replayer.next_settled (Exchange.recording (past ++ x :: rest))
    (past.map Exchange.track) x.track
  rw [hreply] at hnext
  rw [afterwards, afterwards, List.map_append, List.map_singleton]
  exact hnext

theorem store_afterwards (past : List Exchange) (c : Call) (a : c.Answer) (rest : List Exchange) :
    store c (afterwards (past ++ ⟨c, a⟩ :: rest) past) =
      (.ok a, afterwards (past ++ ⟨c, a⟩ :: rest) (past ++ [⟨c, a⟩])) := by
  have hnext := next_afterwards past ⟨c, a⟩ rest
  have hanswer := Call.answer_output c a
  dsimp only at hnext
  rw [store, if_neg (by simp [afterwards]), hnext]
  dsimp only [Exchange.interaction]
  rw [hanswer]
  rfl

/-- On a recording of its own run, a script takes the same way and uses the recording up. -/
theorem run_replayed (inner : Responder σ) (script : Script α) (s : σ) (past : List Exchange) :
    script.run store (afterwards (past ++ script.exchanges inner.store s) past) =
        ⟨(script.run inner.store s).result,
          afterwards (past ++ script.exchanges inner.store s)
            (past ++ script.exchanges inner.store s),
          (script.run inner.store s).emissions⟩ ∧
      script.exchanges store (afterwards (past ++ script.exchanges inner.store s) past) =
        script.exchanges inner.store s := by
  induction script generalizing s past with
  | done a => simp [Script.run, Script.exchanges]
  | call c next ih =>
    have hrest := ih (inner c s).1 (inner c s).2 (past ++ [⟨c, (inner c s).1⟩])
    rw [List.append_assoc, List.singleton_append] at hrest
    have hexchanges : (Script.call c next).exchanges inner.store s =
        ⟨c, (inner c s).1⟩ :: (next (inner c s).1).exchanges inner.store (inner c s).2 := rfl
    rw [hexchanges]
    constructor
    · rw [Script.run, store_afterwards]
      exact hrest.1
    · rw [Script.exchanges, store_afterwards]
      exact congrArg _ hrest.2
  | emit e next ih =>
    obtain ⟨hrun, hexchanges⟩ := ih s past
    refine ⟨?_, hexchanges⟩
    rw [Script.exchanges, Script.run, Script.run, hrun]

theorem remaining_afterwards (log : List Exchange) :
    (afterwards log log).replayer.remaining = 0 := by
  rw [afterwards, Replayer.remaining_settled]
  refine List.sum_eq_zero_iff_forall_eq_nat.mpr fun left hleft => ?_
  obtain ⟨queue, hqueue, rfl⟩ := List.mem_map.mp hleft
  rw [(Replayer.mem_queuesOf_iff.mp hqueue).2, Exchange.length_track_recording, Nat.sub_self]

end Playback

/-! ## The recorded and the replayed run -/

section

variable {σ α : Type}

/-- A script on a recorder over a store. -/
def recordedRun (inner : Responder σ) (script : Script α) (s : σ) : Run (σ × Recorder) α :=
  script.run (Recorder.store inner.store) (s, .empty)

/-- The interactions that a script leaves on a recorder. -/
def recordingOf (inner : Responder σ) (script : Script α) (s : σ) : List Interaction :=
  (recordedRun inner script s).state.2.interactions

/-- A script on the recording of its own run. -/
def replayedRun (inner : Responder σ) (script : Script α) (s : σ) : Run Playback α :=
  script.run Playback.store (.ofInteractions (recordingOf inner script s))

/-- What a recording and its replay give a script. -/
structure Replays (inner : Responder σ) (script : Script α) (s : σ) : Prop where
  /-- Under the recorder, the script asks and is answered as it is without. -/
  recorded_exchanges : script.exchanges (Recorder.store inner.store) (s, .empty) =
    script.exchanges inner.store s
  recorded_result : (recordedRun inner script s).result = (script.run inner.store s).result
  recorded_emissions :
    (recordedRun inner script s).emissions = (script.run inner.store s).emissions
  recorded_state : (recordedRun inner script s).state.1 = (script.run inner.store s).state
  /-- One interaction an exchange, numbered by its position. -/
  interactions : recordingOf inner script s =
    (script.exchanges inner.store s).mapIdx fun i x =>
      ⟨i, "fs", x.call.method, x.call.input, x.call.output x.answer⟩
  /-- On the recording, the script asks and is answered as it was. -/
  replayed_exchanges :
    script.exchanges Playback.store (.ofInteractions (recordingOf inner script s)) =
      script.exchanges inner.store s
  /-- The replayed run breaks down nowhere and has the same result. -/
  replayed_result : ∃ a, (replayedRun inner script s).result = .ok a ∧
    (recordedRun inner script s).result = .ok a
  replayed_emissions :
    (replayedRun inner script s).emissions = (script.run inner.store s).emissions
  drained : (replayedRun inner script s).state.replayer.remaining = 0

theorem recordedRun_eq (inner : Responder σ) (script : Script α) (s : σ) :
    recordedRun inner script s =
      ⟨(script.run inner.store s).result,
        ((script.run inner.store s).state,
          ⟨Exchange.recording (script.exchanges inner.store s), false⟩),
        (script.run inner.store s).emissions⟩ :=
  Recorder.run_recorded inner.store script s []

theorem recordingOf_eq (inner : Responder σ) (script : Script α) (s : σ) :
    recordingOf inner script s = Exchange.recording (script.exchanges inner.store s) := by
  rw [recordingOf, recordedRun_eq]

theorem replays (inner : Responder σ) (script : Script α) (s : σ) : Replays inner script s := by
  obtain ⟨a, ha⟩ := Script.run_responder_ok inner script s
  obtain ⟨hrun, hexchanges⟩ := Playback.run_replayed inner script s []
  have hstart : Playback.ofInteractions (recordingOf inner script s) =
      Playback.afterwards ([] ++ script.exchanges inner.store s) [] := by
    rw [recordingOf_eq, Playback.ofInteractions, ← Replayer.settled_nil]
    rfl
  have hreplayed : replayedRun inner script s = _ := (congrArg _ hstart).trans hrun
  constructor
  case recorded_exchanges => exact Recorder.exchanges_recorded inner.store script s .empty
  case recorded_result => rw [recordedRun_eq]
  case recorded_emissions => rw [recordedRun_eq]
  case recorded_state => rw [recordedRun_eq]
  case interactions => exact recordingOf_eq inner script s
  case replayed_exchanges => rw [hstart, hexchanges]
  case replayed_result => exact ⟨a, by rw [hreplayed, ha], by rw [recordedRun_eq, ha]⟩
  case replayed_emissions => rw [hreplayed]
  case drained => rw [hreplayed, List.nil_append, Playback.remaining_afterwards]

/-- **A replay simulates the recorded run.** For every store that answers and every script, however
it chooses its questions: the recorder passes the answers on and keeps one interaction a question,
and on these interactions the script is given the same answers, without a breakdown and with none
left over. So a whole run of the program has the same result recorded and replayed. -/
theorem replay_simulates_recording (inner : Responder σ) (s : σ) :
    (∀ (β : Type) (script : Script β), Replays inner script s) ∧
      ∀ (parser : Parser) (start : Path) (options : Options),
        ∃ outcome : Except Failure Summary,
          (recordedRun inner (Generate.generate parser start options) s).result = .ok outcome ∧
            (replayedRun inner (Generate.generate parser start options) s).result =
              .ok outcome := by
  refine ⟨fun β script => replays inner script s, fun parser start options => ?_⟩
  obtain ⟨outcome, hreplayed, hrecorded⟩ :=
    (replays inner (Generate.generate parser start options) s).replayed_result
  exact ⟨outcome, hrecorded, hreplayed⟩

end

end ProjectOutline
