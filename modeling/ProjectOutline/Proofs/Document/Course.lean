import ProjectOutline.Proofs.Document.UserText
import ProjectOutline.Proofs.Store.Answers

/-!
# The course of the search

The search for the region goes on from a closing marker only if that takes it farther into the text.
`Course` is the search without this condition: one look after the other, each from the position that
the last one left. A course may well have no end. With an empty closing marker it stays where it is
on every text (`exists_course_iff`).

Each look that fails moves the position on and keeps it in the text (`next_of_probe`), as long as
the closing marker is not empty. So the course has an end, and its positions can be counted against
the text. That the closing marker is not empty is what the check of a configuration is for, and
there is no way to a configuration around it (`validate_of_load`).
-/

namespace ProjectOutline

namespace Markers

variable {m : Markers} {text : List Char} {position next : Nat} {visited : List Nat}
  {result : Option (Nat × Nat)}

/-- The course of a search from a position on: the positions from which it looks, in their order,
and what it comes to. -/
inductive Course (m : Markers) (text : List Char) :
    Nat → List Nat → Option (Nat × Nat) → Prop
  | absent (position : Nat) (look : m.probe text position = .absent) :
      Course m text position [position] none
  | found (position start stop : Nat) (look : m.probe text position = .found start stop) :
      Course m text position [position] (some (start, stop))
  | retry (position next : Nat) (visited : List Nat) (result : Option (Nat × Nat))
      (look : m.probe text position = .retry next) (rest : Course m text next visited result) :
      Course m text position (position :: visited) result

/-- The positions of a course go forward and stay in the text, and so do the two parts of the text
that are looked at from each: the one behind the position, and the one before the closing marker
found there. -/
structure StaysInside (m : Markers) (text : List Char) (visited : List Nat) : Prop where
  ascending : visited.Pairwise (· < ·)
  position_le : ∀ position ∈ visited, position ≤ text.length
  closing_le : ∀ position ∈ visited, ∀ offset,
    Text.firstAt m.closing.toList (text.drop position) = some offset →
      position + offset ≤ text.length
  length_le : visited.length ≤ text.length + 1

/-- On every text the search has an end, reached by a course inside the text. -/
def SearchEnds (m : Markers) : Prop :=
  ∀ text : List Char, ∃ visited, Course m text 0 visited (m.locate text) ∧
    m.StaysInside text visited

/-! ## One look -/

theorem stop_le_of_firstAt {offset : Nat} (hne : m.closing.toList ≠ [])
    (hfirst : Text.firstAt m.closing.toList (text.drop position) = some offset) :
    position + offset + m.closing.toList.length ≤ text.length := by
  have hstands := (Text.firstAt_eq_some_iff.mp hfirst).1
  rw [Text.standsAt_drop_iff] at hstands
  exact hstands.stop_le hne

/-- A look that fails sends the search forward, at most to the end of the text. -/
theorem next_of_probe (hne : m.closing.toList ≠ []) (h : m.probe text position = .retry next) :
    position < next ∧ next ≤ text.length := by
  unfold probe at h
  split at h
  · cases h
  · next offset hfirst =>
    have hstop := stop_le_of_firstAt hne hfirst
    have hpos := List.length_pos_iff.mpr hne
    split at h
    · cases h
    · cases h
      omega

/-! ## A whole course -/

/-- The search and its course come to the same. -/
theorem exists_course (text : List Char) (hne : m.closing.toList ≠ []) (position : Nat) :
    ∃ visited, Course m text position visited (m.locateFrom text position) := by
  cases hlook : m.probe text position with
  | absent =>
    refine ⟨[position], ?_⟩
    rw [locateFrom, hlook]
    exact .absent position hlook
  | found start stop =>
    refine ⟨[position], ?_⟩
    rw [locateFrom, hlook]
    exact .found position start stop hlook
  | retry next =>
    -- What `locateFrom` asks of the next position is always so.
    have hnext := next_of_probe hne hlook
    obtain ⟨visited, hrest⟩ := exists_course text hne next
    refine ⟨position :: visited, ?_⟩
    rw [locateFrom, hlook]
    dsimp only
    rw [if_pos hnext]
    exact .retry position next visited _ hlook hrest
termination_by text.length - position

section Run

variable (hne : m.closing.toList ≠ [])
include hne

theorem Course.between (h : Course m text position visited result)
    (hposition : position ≤ text.length) :
    ∀ p ∈ visited, position ≤ p ∧ p ≤ text.length := by
  induction h with
  | absent position look => simpa using hposition
  | found position start stop look => simpa using hposition
  | retry position next visited result look rest ih =>
    obtain ⟨hlt, hle⟩ := next_of_probe hne look
    intro p hp
    rcases List.mem_cons.mp hp with rfl | hp
    · exact ⟨Nat.le_refl p, hposition⟩
    · have hrest := ih hle p hp
      omega

theorem Course.ascending (h : Course m text position visited result) :
    visited.Pairwise (· < ·) := by
  induction h with
  | absent position look => exact List.pairwise_singleton _ position
  | found position start stop look => exact List.pairwise_singleton _ position
  | retry position next visited result look rest ih =>
    obtain ⟨hlt, hle⟩ := next_of_probe hne look
    refine List.pairwise_cons.mpr ⟨fun p hp => ?_, ih⟩
    exact Nat.lt_of_lt_of_le hlt (rest.between hne hle p hp).1

/-- Every look takes at least one of the positions that are left. -/
theorem Course.length_le (h : Course m text position visited result)
    (hposition : position ≤ text.length) : position + visited.length ≤ text.length + 1 := by
  induction h with
  | absent position look => simpa using hposition
  | found position start stop look => simpa using hposition
  | retry position next visited result look rest ih =>
    obtain ⟨hlt, hle⟩ := next_of_probe hne look
    have hrest := ih hle
    rw [List.length_cons]
    omega

theorem Course.staysInside (h : Course m text 0 visited result) : m.StaysInside text visited where
  ascending := h.ascending hne
  position_le p hp := (h.between hne (Nat.zero_le _) p hp).2
  closing_le p _ offset hfirst := by
    have hstop := stop_le_of_firstAt hne hfirst
    omega
  length_le := by
    have hlength := h.length_le hne (Nat.zero_le _)
    omega

theorem searchEnds_of_closing_ne : m.SearchEnds := by
  intro text
  obtain ⟨visited, hcourse⟩ := exists_course text hne 0
  exact ⟨visited, hcourse, hcourse.staysInside hne⟩

end Run

/-! ## Searches without an end -/

theorem probe_of_closing_empty (text : List Char) (hclosing : m.closing = "") :
    m.probe text 0 = if m.opening = "" then .found 0 0 else .retry 0 := by
  have hfirst : Text.firstAt [] text = some 0 := by cases text <;> simp [Text.firstAt]
  by_cases hopening : m.opening = ""
  · simp [probe, hclosing, hopening, hfirst, Text.lastAt]
  · simp [probe, hclosing, hopening, hfirst, Text.lastAt]

/-- A look that leaves the position where it is does so again and again. -/
theorem not_course_of_stuck (h : m.probe text position = .retry position) :
    ¬ Course m text position visited result := by
  intro hcourse
  induction hcourse with
  | absent position look =>
    rw [h] at look
    cases look
  | found position start stop look =>
    rw [h] at look
    cases look
  | retry position next visited result look rest ih =>
    rw [h] at look
    cases look
    exact ih h

/-- A search has an end exactly if the closing marker is not empty or the opening one is. The text
does not matter. -/
theorem exists_course_iff (m : Markers) (text : List Char) :
    (∃ visited result, Course m text 0 visited result) ↔ m.closing ≠ "" ∨ m.opening = "" := by
  by_cases hclosing : m.closing = ""
  · have hlook := probe_of_closing_empty text hclosing
    by_cases hopening : m.opening = ""
    · rw [if_pos hopening] at hlook
      exact ⟨fun _ => Or.inr hopening, fun _ => ⟨[0], _, .found 0 0 0 hlook⟩⟩
    · rw [if_neg hopening] at hlook
      constructor
      · rintro ⟨visited, result, hcourse⟩
        exact absurd hcourse (not_course_of_stuck hlook)
      · rintro (hne | hempty)
        · exact absurd hclosing hne
        · exact absurd hempty hopening
  · have hne : m.closing.toList ≠ [] := fun hnil => hclosing (String.toList_eq_nil_iff.mp hnil)
    obtain ⟨visited, hcourse⟩ := exists_course text hne 0
    exact ⟨fun _ => Or.inl hclosing, fun _ => ⟨visited, _, hcourse⟩⟩

end Markers

/-! ## Accepted configurations -/

namespace Config

variable {config decoded : Config}

theorem validate_standard : standard.validate = .ok standard := by decide

/-- The check lets a configuration pass as it is. -/
theorem validate_of_validate (h : decoded.validate = .ok config) :
    config.validate = .ok config := by
  have hsame : decoded = config := by
    rw [validate] at h
    split at h
    · cases h
    · split at h
      · cases h
      · exact Except.ok.inj h
  subst hsame
  exact h

theorem validate_of_ofText {text : String} (h : ofText text = .ok config) :
    config.validate = .ok config := by
  rw [ofText] at h
  split at h
  · cases h
    exact validate_standard
  · -- The value that the decoder yields is not looked into.
    generalize Yaml.decodeText decode text = answer at h
    cases answer with
    | error reason => cases h
    | ok decoded =>
      simp only [bind, Except.bind] at h
      exact validate_of_validate h

/-- Every configuration that loading returns has passed the check, whatever the store answers. -/
theorem validate_of_load {σ : Type} {store : Store σ} {s : σ} {root : Path}
    (h : ((load root).run store s).result = .ok (.ok config)) : config.validate = .ok config := by
  rw [load] at h
  obtain ⟨present, -, h, -⟩ := Script.run_bind_ok _ _ h
  split at h
  · obtain ⟨answer, -, h, -⟩ := Script.run_bind_ok _ _ h
    split at h
    · cases h
    · next text =>
      split at h
      · cases h
      · next loaded hloaded =>
        cases h
        exact validate_of_ofText hloaded
  · cases h
    exact validate_standard

theorem searchEnds_of_validate (h : config.validate = .ok config) :
    config.markers.SearchEnds := by
  have hclosing := (markers_ne_of_validate h).2
  exact Markers.searchEnds_of_closing_ne (toList_ne_nil_of_trim_ne hclosing)

/-- **The search for the region ends under every configuration that the program accepts.** That is
so of every configuration that loading returns, whatever the store answers, and of every value that
passes the check, whatever it was decoded from. -/
theorem accepted_search_ends :
    (∀ (σ : Type) (store : Store σ) (s : σ) (root : Path) (config : Config),
        ((load root).run store s).result = .ok (.ok config) → config.markers.SearchEnds) ∧
      ∀ decoded config : Config, decoded.validate = .ok config → config.markers.SearchEnds := by
  constructor
  · intro σ store s root config hload
    exact searchEnds_of_validate (validate_of_load hload)
  · intro decoded config haccepted
    exact searchEnds_of_validate (validate_of_validate haccepted)

/-- A configuration with markers of its own. -/
def tagged : Config :=
  { standard with markers := ⟨"<a>", "</a>"⟩ }

/-- A store with a configuration file that names these markers. -/
def taggedAnswers : Answers
  | .present _ => true
  | .read _ => .ok "begin_marker: <a>\nend_marker: </a>\n"
  | .write _ _ => .error "read only"
  | .isDir _ => true
  | .list _ => .ok [".exportmap.yaml"]
  | .walk _ _ => .ok []

/-- The markers are read from a file, and the search passes a stray closing marker before it
ends. -/
theorem accepted_search_ends_tagged :
    ((load ⟨"p"⟩).run taggedAnswers.responder.store ()).result = .ok (.ok tagged) ∧
      ∃ visited, Markers.Course tagged.markers "</a> <a>x</a>".toList 0 visited (some (5, 13)) ∧
        visited.length ≤ 14 := by
  have hload : ((load ⟨"p"⟩).run taggedAnswers.responder.store ()).result = .ok (.ok tagged) := by
    rw [Script.run_of_gives taggedAnswers.responder_gives]
    rfl
  have hlocate : tagged.markers.locate "</a> <a>x</a>".toList = some (5, 13) := by cbv
  obtain ⟨visited, hcourse, hinside⟩ :=
    accepted_search_ends.1 Unit taggedAnswers.responder.store () ⟨"p"⟩ tagged hload
      "</a> <a>x</a>".toList
  rw [hlocate] at hcourse
  exact ⟨hload, visited, hcourse, hinside.length_le⟩

end Config

end ProjectOutline
