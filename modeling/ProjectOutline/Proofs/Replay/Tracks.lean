import Mathlib.Algebra.GroupWithZero.Nat
import Mathlib.Data.List.Induction
import ProjectOutline.Replay

/-!
# Tracks of a cassette

A replayer keeps a queue and a cursor for each service and method. Both are told by the cassette and
the requests so far: the queue of a track holds its interactions in the order of the cassette
(`get?_queuesOf`), and the cursor stands at the number of requests for the track, but never behind
the end of the queue. `settled` is the replayer in that state, and `next_settled` the only step
there is: a request is answered by the number of earlier requests for its own track, and leads from
one settled state to the next.

All else follows from that state. Requests for other tracks do not show in an answer, a request that
fails changes no cursor (`settled_concat_of_length_le`), and each that succeeds takes one off what
remains (`remaining_settled_concat`).
-/

namespace ProjectOutline

/-! ## Tables -/

namespace Table

variable {κ β γ : Type} [DecidableEq κ] {key : κ} {table : List (κ × β)}

theorem get?_of_mem (hnodup : (table.map Prod.fst).Nodup) {value : β}
    (hentry : (key, value) ∈ table) : get? key table = some value := by
  induction table with
  | nil => cases hentry
  | cons first rest ih =>
    obtain ⟨hfirst, hrest⟩ := List.nodup_cons.mp hnodup
    rw [get?]
    rcases List.mem_cons.mp hentry with rfl | hentry
    · rw [if_pos rfl]
    · have hne : first.1 ≠ key := by
        rintro rfl
        exact hfirst (List.mem_map.mpr ⟨_, hentry, rfl⟩)
      rw [if_neg hne, ih hrest hentry]

theorem mem_of_get? {value : β} (h : get? key table = some value) : (key, value) ∈ table := by
  induction table with
  | nil => cases h
  | cons entry rest ih =>
    rw [get?] at h
    split at h
    · next hkey =>
      cases h
      rw [← hkey]
      exact List.mem_cons_self
    · exact List.mem_cons_of_mem _ (ih h)

theorem keys_update (start : β) (change : β → β) :
    (update key start change table).map Prod.fst =
      if key ∈ table.map Prod.fst then table.map Prod.fst else table.map Prod.fst ++ [key] := by
  induction table with
  | nil => simp [update]
  | cons entry rest ih =>
    rw [update]
    by_cases hkey : entry.1 = key
    · simp [hkey]
    · have hkey' : key ≠ entry.1 := Ne.symm hkey
      simp only [if_neg hkey, List.map_cons, ih, List.mem_cons, hkey', false_or]
      split <;> rfl

theorem get?_update (start : β) (change : β → β) (k : κ) :
    get? k (update key start change table) =
      if k = key then some (change ((get? key table).getD start)) else get? k table := by
  induction table with
  | nil =>
    rw [update, get?]
    simp [get?, eq_comm]
  | cons entry rest ih =>
    rw [update]
    by_cases hentry : entry.1 = key
    · rw [if_pos hentry, get?, get?, get?, if_pos hentry, hentry]
      by_cases hk : k = key
      · simp [hk]
      · simp [hk, Ne.symm hk]
    · rw [if_neg hentry, get?, get?, get?, if_neg hentry, ih]
      by_cases hk : entry.1 = k
      · simp [← hk, hentry]
      · simp [hk]

/-- Values that are told by the entries of another table, changed at a key of it. -/
theorem update_map (hnodup : (table.map Prod.fst).Nodup) (hkey : key ∈ table.map Prod.fst)
    (start : γ) (change : γ → γ) (value : κ × β → γ) :
    update key start change (table.map fun e => (e.1, value e)) =
      table.map fun e => (e.1, if e.1 = key then change (value e) else value e) := by
  induction table with
  | nil => cases hkey
  | cons entry rest ih =>
    obtain ⟨hentry, hrest⟩ := List.nodup_cons.mp hnodup
    rw [List.map_cons, List.map_cons, update]
    by_cases hfirst : entry.1 = key
    · have hothers : ∀ e ∈ rest, e.1 ≠ key :=
        fun e he heq => hentry (hfirst ▸ heq ▸ List.mem_map_of_mem he)
      rw [if_pos hfirst, if_pos hfirst]
      refine congrArg _ (List.map_congr_left fun e he => ?_)
      rw [if_neg (hothers e he)]
    · have hmem : key ∈ rest.map Prod.fst := by
        simpa [Ne.symm hfirst] using hkey
      rw [if_neg hfirst, if_neg hfirst, ih hrest hmem]

omit [DecidableEq κ] in
/-- A sum over the entries of a table, if the summand of one key changes by one. -/
theorem sum_map_succ (hnodup : (table.map Prod.fst).Nodup) {entry : κ × β} (hentry : entry ∈ table)
    {f g : κ × β → Nat} (hone : f entry + 1 = g entry)
    (hothers : ∀ e ∈ table, e.1 ≠ entry.1 → f e = g e) :
    (table.map f).sum + 1 = (table.map g).sum := by
  induction table with
  | nil => cases hentry
  | cons first rest ih =>
    obtain ⟨hfirst, hrest⟩ := List.nodup_cons.mp hnodup
    simp only [List.map_cons, List.sum_cons]
    rcases List.mem_cons.mp hentry with rfl | hentry
    · have hsame : rest.map f = rest.map g := List.map_congr_left fun e he =>
        hothers e (List.mem_cons_of_mem _ he) fun heq => hfirst (heq ▸ List.mem_map_of_mem he)
      rw [hsame]
      omega
    · have hne : first.1 ≠ entry.1 := fun heq => hfirst (heq ▸ List.mem_map_of_mem hentry)
      have hsum := ih hrest hentry fun e he => hothers e (List.mem_cons_of_mem _ he)
      rw [hothers first List.mem_cons_self hne]
      omega

end Table

/-! ## Queues -/

/-- The service and the method of an interaction. -/
def Interaction.track (i : Interaction) : String × String := (i.service, i.method)

namespace Replayer

variable {recorded : List Interaction} {requests : List (String × String)}
  {track : String × String}

/-- The interactions of a track, in the order of the cassette. -/
def trackOf (recorded : List Interaction) (track : String × String) : List Interaction :=
  recorded.filter (·.track = track)

/-- The queues of a cassette. -/
def queuesOf (recorded : List Interaction) : List ((String × String) × List Interaction) :=
  (ofInteractions recorded).queues

theorem queuesOf_concat (recorded : List Interaction) (i : Interaction) :
    queuesOf (recorded ++ [i]) = Table.update i.track [] (· ++ [i]) (queuesOf recorded) := by
  simp only [queuesOf, ofInteractions, List.foldl_append]
  rfl

theorem trackOf_concat (recorded : List Interaction) (i : Interaction) (track : String × String) :
    trackOf (recorded ++ [i]) track =
      if track = i.track then trackOf recorded track ++ [i] else trackOf recorded track := by
  by_cases htrack : track = i.track
  · simp [trackOf, htrack]
  · simp [trackOf, htrack, Ne.symm htrack]

theorem nodup_keys_queuesOf (recorded : List Interaction) :
    ((queuesOf recorded).map Prod.fst).Nodup := by
  induction recorded using List.reverseRecOn with
  | nil => exact List.nodup_nil
  | append_singleton recorded i ih =>
    rw [queuesOf_concat, Table.keys_update]
    split
    · exact ih
    · next hnew => exact List.nodup_append.mpr ⟨ih, List.pairwise_singleton _ _, by grind⟩

/-- A track has a queue if the cassette has an interaction of it, and the queue holds these. -/
theorem get?_queuesOf (recorded : List Interaction) (track : String × String) :
    Table.get? track (queuesOf recorded) =
      if trackOf recorded track = [] then none else some (trackOf recorded track) := by
  induction recorded using List.reverseRecOn with
  | nil => rfl
  | append_singleton recorded i ih =>
    rw [queuesOf_concat, Table.get?_update, trackOf_concat]
    by_cases htrack : track = i.track
    · have hne : trackOf recorded track ++ [i] ≠ [] := by simp
      rw [if_pos htrack, if_pos htrack, if_neg hne, ← htrack, ih]
      by_cases hempty : trackOf recorded track = [] <;> simp [hempty]
    · rw [if_neg htrack, if_neg htrack, ih]

theorem mem_queuesOf_iff {queue : (String × String) × List Interaction} :
    queue ∈ queuesOf recorded ↔
      trackOf recorded queue.1 ≠ [] ∧ queue.2 = trackOf recorded queue.1 := by
  constructor
  · intro hqueue
    have hget := Table.get?_of_mem (nodup_keys_queuesOf recorded) hqueue
    rw [get?_queuesOf] at hget
    split at hget
    · cases hget
    · next htrack => exact ⟨htrack, (Option.some.inj hget).symm⟩
  · rintro ⟨htrack, hqueue⟩
    apply Table.mem_of_get?
    rw [get?_queuesOf, if_neg htrack, hqueue]

theorem mem_queuesOf (htrack : trackOf recorded track ≠ []) :
    (track, trackOf recorded track) ∈ queuesOf recorded :=
  mem_queuesOf_iff.mpr ⟨htrack, rfl⟩

theorem sum_length_update (i : Interaction) (table : List ((String × String) × List Interaction)) :
    ((Table.update i.track [] (· ++ [i]) table).map (·.2.length)).sum =
      (table.map (·.2.length)).sum + 1 := by
  induction table with
  | nil => rfl
  | cons queue rest ih =>
    rw [Table.update]
    split
    · simp only [List.map_cons, List.sum_cons, List.length_append, List.length_singleton]
      omega
    · simp only [List.map_cons, List.sum_cons, ih]
      omega

/-- The queues hold all interactions of the cassette. -/
theorem sum_length_queuesOf (recorded : List Interaction) :
    ((queuesOf recorded).map (·.2.length)).sum = recorded.length := by
  induction recorded using List.reverseRecOn with
  | nil => rfl
  | append_singleton recorded i ih =>
    rw [queuesOf_concat, sum_length_update, ih, List.length_append, List.length_singleton]

/-! ## Cursors -/

/-- A replayer after some requests: each cursor stands at the number of requests for its track, or
at the end of its queue. -/
def settled (recorded : List Interaction) (requests : List (String × String)) : Replayer where
  queues := queuesOf recorded
  cursors := (queuesOf recorded).map fun queue =>
    (queue.1, min (requests.count queue.1) queue.2.length)

/-- The answer to a request for a track that follows `k` others for it. -/
def reply (recorded : List Interaction) (track : String × String) (k : Nat) :
    Except Exhausted Interaction :=
  match (trackOf recorded track)[k]? with
  | some interaction => .ok interaction
  | none =>
    if trackOf recorded track = [] then
      .error (.unknown track.1 track.2 ((queuesOf recorded).map Prod.fst))
    else
      .error (.consumed track.1 track.2 (trackOf recorded track).length
        (((trackOf recorded track).getLast?.map Interaction.seq).getD 0))

theorem reply_eq_ok_iff {k : Nat} {interaction : Interaction} :
    reply recorded track k = .ok interaction ↔ (trackOf recorded track)[k]? = some interaction := by
  rw [reply]
  cases (trackOf recorded track)[k]? with
  | some found => simp
  | none =>
    dsimp only
    split <;> simp

theorem isOk_reply_iff {k : Nat} :
    (reply recorded track k).isOk = true ↔ k < (trackOf recorded track).length := by
  constructor
  · intro hok
    cases hreply : reply recorded track k with
    | error exhausted => simp [hreply, Except.isOk, Except.toBool] at hok
    | ok interaction => exact (List.getElem?_eq_some_iff.mp (reply_eq_ok_iff.mp hreply)).1
  · intro hlt
    rw [reply_eq_ok_iff.mpr (List.getElem?_eq_getElem hlt)]
    rfl

theorem settled_nil (recorded : List Interaction) :
    settled recorded [] = ofInteractions recorded := by
  simp only [settled, List.count_nil, Nat.zero_min]
  rfl

theorem cursor_settled (htrack : trackOf recorded track ≠ []) :
    (settled recorded requests).cursor track =
      min (requests.count track) (trackOf recorded track).length := by
  have hkeys : ((settled recorded requests).cursors.map Prod.fst).Nodup := by
    rw [settled, List.map_map]
    exact nodup_keys_queuesOf recorded
  rw [cursor, Table.get?_of_mem hkeys (List.mem_map_of_mem (mem_queuesOf htrack)),
    Option.getD_some]

/-- No cursor stands behind the end of its queue. -/
theorem cursor_settled_le {queue : (String × String) × List Interaction}
    (hqueue : queue ∈ (settled recorded requests).queues) :
    (settled recorded requests).cursor queue.1 ≤ queue.2.length := by
  obtain ⟨htrack, hinteractions⟩ := mem_queuesOf_iff.mp hqueue
  rw [cursor_settled htrack, hinteractions]
  exact Nat.min_le_right _ _

theorem update_cursors_settled (htrack : trackOf recorded track ≠ []) (change : Nat → Nat) :
    Table.update track 0 change (settled recorded requests).cursors =
      (queuesOf recorded).map fun queue => (queue.1,
        if queue.1 = track then change (min (requests.count queue.1) queue.2.length)
        else min (requests.count queue.1) queue.2.length) :=
  Table.update_map (nodup_keys_queuesOf recorded)
    (List.mem_map.mpr ⟨_, mem_queuesOf htrack, rfl⟩) _ _ _

/-- A request for a track that is used up leaves every cursor where it is. -/
theorem settled_concat_of_length_le (h : (trackOf recorded track).length ≤ requests.count track) :
    settled recorded (requests ++ [track]) = settled recorded requests := by
  rw [settled, settled]
  refine congrArg _ (List.map_congr_left fun queue hqueue => ?_)
  rw [(mem_queuesOf_iff.mp hqueue).2, List.count_append, List.count_singleton]
  split
  · next hsame =>
    obtain rfl := eq_of_beq hsame
    rw [Nat.min_eq_right (by omega), Nat.min_eq_right h]
  · rw [Nat.add_zero]

/-- Any other request moves the cursor of its track. -/
theorem settled_concat_of_lt (h : requests.count track < (trackOf recorded track).length) :
    settled recorded (requests ++ [track]) =
      { settled recorded requests with
        cursors := Table.update track 0 (· + 1) (settled recorded requests).cursors } := by
  have htrack : trackOf recorded track ≠ [] := List.ne_nil_of_length_pos (by omega)
  rw [update_cursors_settled htrack, settled, settled]
  refine congrArg _ (List.map_congr_left fun queue hqueue => ?_)
  rw [(mem_queuesOf_iff.mp hqueue).2, List.count_append, List.count_singleton]
  by_cases hsame : queue.1 = track
  · rw [hsame, if_pos rfl, if_pos (beq_self_eq_true track), Nat.min_eq_left h,
      Nat.min_eq_left (Nat.le_of_lt h)]
  · rw [if_neg hsame, if_neg (by simpa using Ne.symm hsame), Nat.add_zero]

/-- **One step.** A request is answered by the number of earlier requests for its track. -/
theorem next_settled (recorded : List Interaction) (requests : List (String × String))
    (track : String × String) :
    (settled recorded requests).next track.1 track.2 =
      (reply recorded track (requests.count track), settled recorded (requests ++ [track])) := by
  have hqueue : Table.get? (track.1, track.2) (settled recorded requests).queues = _ :=
    get?_queuesOf recorded track
  by_cases htrack : trackOf recorded track = []
  · rw [settled_concat_of_length_le (by simp [htrack]), next, hqueue]
    simp [reply, htrack, settled]
  · -- The cursor is there, so that putting it at the beginning does nothing.
    have hpresent : Table.update track 0 id (settled recorded requests).cursors =
        (settled recorded requests).cursors := by
      rw [update_cursors_settled htrack]
      simp [settled]
    rw [next, hqueue, if_neg htrack]
    simp only [hpresent, cursor_settled htrack]
    by_cases hlt : requests.count track < (trackOf recorded track).length
    · rw [settled_concat_of_lt hlt, Nat.min_eq_left (Nat.le_of_lt hlt), reply,
        List.getElem?_eq_getElem hlt]
    · rw [settled_concat_of_length_le (by omega), Nat.min_eq_right (by omega), reply,
        List.getElem?_eq_none (Nat.le_refl _), List.getElem?_eq_none (by omega), if_neg htrack]

/-! ## Requests -/

/-- The replayer after some requests. -/
def after (r : Replayer) (requests : List (String × String)) : Replayer :=
  requests.foldl (fun r track => (r.next track.1 track.2).2) r

/-- The answers to some requests, one after another. -/
def answers (r : Replayer) : List (String × String) → List (Except Exhausted Interaction)
  | [] => []
  | track :: rest => (r.next track.1 track.2).1 :: answers (r.next track.1 track.2).2 rest

theorem after_settled (recorded : List Interaction) (earlier requests : List (String × String)) :
    (settled recorded earlier).after requests = settled recorded (earlier ++ requests) := by
  induction requests generalizing earlier with
  | nil => rw [List.append_nil, after, List.foldl_nil]
  | cons track rest ih =>
    rw [after, List.foldl_cons, next_settled]
    exact (ih _).trans (by rw [List.append_assoc, List.singleton_append])

theorem answers_concat (r : Replayer) (requests : List (String × String))
    (track : String × String) :
    r.answers (requests ++ [track]) =
      r.answers requests ++ [((r.after requests).next track.1 track.2).1] := by
  induction requests generalizing r with
  | nil => rfl
  | cons first rest ih => exact congrArg _ (ih _)

theorem answers_settled (recorded : List Interaction) (earlier requests : List (String × String)) :
    (settled recorded earlier).answers requests =
      requests.mapIdx fun i track =>
        reply recorded track ((earlier ++ requests.take i).count track) := by
  induction requests generalizing earlier with
  | nil => rfl
  | cons track rest ih =>
    rw [answers, next_settled, ih, List.mapIdx_cons]
    simp

/-! ## What remains -/

theorem remaining_eq_sum (r : Replayer) :
    r.remaining = (r.queues.map fun queue => queue.2.length - r.cursor queue.1).sum := by
  rw [remaining, List.sum_eq_foldr, List.foldr_map]

theorem remaining_settled (recorded : List Interaction) (requests : List (String × String)) :
    (settled recorded requests).remaining =
      ((queuesOf recorded).map fun queue => queue.2.length - requests.count queue.1).sum := by
  rw [remaining_eq_sum]
  refine congrArg List.sum (List.map_congr_left fun queue hqueue => ?_)
  obtain ⟨htrack, hinteractions⟩ := mem_queuesOf_iff.mp hqueue
  rw [cursor_settled htrack, ← hinteractions]
  omega

/-- A request that is served takes one interaction off, any other takes none. -/
theorem remaining_settled_concat (recorded : List Interaction) (requests : List (String × String))
    (track : String × String) :
    (settled recorded (requests ++ [track])).remaining +
        (if (reply recorded track (requests.count track)).isOk then 1 else 0) =
      (settled recorded requests).remaining := by
  simp only [isOk_reply_iff]
  split
  · next hlt =>
    have htrack : trackOf recorded track ≠ [] := List.ne_nil_of_length_pos (by omega)
    rw [remaining_settled, remaining_settled]
    refine Table.sum_map_succ (nodup_keys_queuesOf recorded) (mem_queuesOf htrack) ?_ ?_
    · simp only [List.count_append, List.count_singleton_self]
      omega
    · intro queue _ hne
      rw [List.count_append, List.count_singleton, if_neg (by simpa using Ne.symm hne),
        Nat.add_zero]
  · next hall => rw [settled_concat_of_length_le (by omega), Nat.add_zero]

theorem remaining_add_served (recorded : List Interaction) (requests : List (String × String)) :
    (settled recorded requests).remaining +
        ((settled recorded []).answers requests).countP Except.isOk = recorded.length := by
  induction requests using List.reverseRecOn with
  | nil =>
    rw [remaining_settled]
    simpa [answers] using sum_length_queuesOf recorded
  | append_singleton requests track ih =>
    have hstep := remaining_settled_concat recorded requests track
    rw [answers_concat, after_settled, List.nil_append, next_settled, List.countP_append,
      List.countP_singleton]
    dsimp only
    omega

/-- **Each track is served by itself.** For every cassette and every sequence of requests: the
request that follows `k` others for its track gets interaction `k` of the track, or fails if there
is none, whatever was requested of other tracks; no cursor is behind the end of its queue; what
remains and what was served make up the cassette; and a request that fails leaves the replayer as it
was. -/
theorem replayer_serves_tracks (recorded : List Interaction) (requests : List (String × String)) :
    (ofInteractions recorded).answers requests =
        requests.mapIdx (fun i track => reply recorded track ((requests.take i).count track)) ∧
      (∀ queue ∈ ((ofInteractions recorded).after requests).queues,
        ((ofInteractions recorded).after requests).cursor queue.1 ≤ queue.2.length) ∧
      ((ofInteractions recorded).after requests).remaining +
        ((ofInteractions recorded).answers requests).countP Except.isOk = recorded.length ∧
      ∀ service method exhausted after,
        ((ofInteractions recorded).after requests).next service method = (.error exhausted, after) →
          after = (ofInteractions recorded).after requests := by
  rw [← settled_nil, after_settled, List.nil_append]
  refine ⟨answers_settled recorded [] requests, fun queue hqueue => cursor_settled_le hqueue,
    remaining_add_served recorded requests, fun service method exhausted after hnext => ?_⟩
  rw [next_settled recorded requests (service, method), Prod.mk.injEq] at hnext
  obtain ⟨hreply, rfl⟩ := hnext
  apply settled_concat_of_length_le
  by_contra hlt
  have hok := isOk_reply_iff.mpr (Nat.lt_of_not_le hlt)
  rw [hreply] at hok
  cases hok

end Replayer

end ProjectOutline
