import Mathlib.Data.List.Basic
import ProjectOutline.StoreCall

/-!
# What a recorded output tells

The answer to a question is read from a JSON value. `Call.Tells` says which answer a value stands
for without the reader: a truth value for itself, a failure by its member `err`, and a success by
its member `ok`, or by the value as a whole where there is neither. The reader gives that answer for
every value, also for one that no recorder writes (`tells_answer`), and it gives back every answer
that was recorded (`answer_output`).
-/

namespace ProjectOutline

namespace JsonValue

theorem toText_eq_ok_iff {expected text : String} {value : JsonValue} :
    value.toText expected = .ok text ↔ value = .str text := by
  cases value with
  | str other => simp [toText]
  | _ => simp [toText, unexpected]

theorem mapM_toText_eq_ok_iff {expected : String} {items : List JsonValue} {texts : List String} :
    items.mapM (toText expected) = .ok texts ↔ items = texts.map .str := by
  induction items generalizing texts with
  | nil =>
    rw [List.mapM_nil]
    cases texts with
    | nil => exact ⟨fun _ => rfl, fun _ => rfl⟩
    | cons text rest => exact ⟨nofun, nofun⟩
  | cons item items ih =>
    rw [List.mapM_cons]
    constructor
    · intro h
      cases hitem : item.toText expected with
      | error problem =>
        rw [hitem] at h
        cases h
      | ok text =>
        cases hitems : items.mapM (toText expected) with
        | error problem =>
          rw [hitem, hitems] at h
          cases h
        | ok rest =>
          rw [hitem, hitems] at h
          cases h
          rw [List.map_cons, toText_eq_ok_iff.mp hitem, ih.mp hitems]
    · intro h
      cases texts with
      | nil => cases h
      | cons text rest =>
        rw [List.map_cons, List.cons.injEq] at h
        rw [toText_eq_ok_iff.mpr h.1, ih.mpr h.2]
        rfl

theorem toTexts_eq_ok_iff {expected : String} {texts : List String} {value : JsonValue} :
    value.toTexts expected = .ok texts ↔ value = .strings texts := by
  cases value with
  | arr items =>
    rw [toTexts, mapM_toText_eq_ok_iff, strings, arr.injEq]
  | _ => simp [toTexts, unexpected, strings]

end JsonValue

namespace Call

variable {α : Type}

/-! ## Answers that can fail -/

/-- The value of an output that tells no failure. -/
def Carries (output value : JsonValue) : Prop :=
  output.get? "ok" = some value ∨ output.get? "ok" = none ∧ output = value

/-- What an output tells of an answer that can fail. `holds` says which value is which success. -/
inductive TellsResult (method : String) (holds : JsonValue → α → Prop) (output : JsonValue) :
    Except String α → Prop where
  | failure {text : String} (h : output.get? "err" = some (.str text)) :
      TellsResult method holds output (.error text)
  | unknown {err : JsonValue} (h : output.get? "err" = some err)
      (hother : ∀ text, err ≠ .str text) :
      TellsResult method holds output (.error "unknown error")
  | success {value : JsonValue} {a : α} (h : output.get? "err" = none)
      (hvalue : Carries output value) (ha : holds value a) : TellsResult method holds output (.ok a)
  | malformed {value : JsonValue} (problem : String) (h : output.get? "err" = none)
      (hvalue : Carries output value) (hnone : ∀ a, ¬ holds value a) :
      TellsResult method holds output
        (.error ("fs::" ++ method ++ ": failed to deserialize: " ++ problem))

/-- What an output tells of a truth value. -/
inductive TellsFlag (method : String) (output : JsonValue) : Except Fault Bool → Prop where
  | flag {value : Bool} (h : output = .bool value) : TellsFlag method output (.ok value)
  | malformed (h : ∀ value, output ≠ .bool value) :
      TellsFlag method output (.error ⟨"fs::" ++ method ++ ": expected boolean output"⟩)

/-- What an output tells the question. A question that can fail is always answered. -/
def Tells : (c : Call) → JsonValue → Except Fault c.Answer → Prop
  | read _, output, result => ∃ answer, result = .ok answer ∧
      TellsResult "read_to_string" (fun value text => value = .str text) output answer
  | write _ _, output, result => ∃ answer, result = .ok answer ∧
      TellsResult "write" (fun _ _ => True) output answer
  | present _, output, result => TellsFlag "exists" output result
  | isDir _, output, result => TellsFlag "is_dir" output result
  | list _, output, result => ∃ answer, result = .ok answer ∧
      TellsResult "list_dir" (fun value names => value = .strings names) output answer
  | walk _ _, output, result => ∃ answer, result = .ok answer ∧
      TellsResult "walk_files" (fun value paths => value = .strings (paths.map Path.text)) output
        answer

theorem carries_getD (output : JsonValue) : Carries output ((output.get? "ok").getD output) := by
  rw [Carries]
  cases output.get? "ok" with
  | none => exact Or.inr ⟨rfl, rfl⟩
  | some value => exact Or.inl rfl

/-- The failure that an output tells, or that it tells none. -/
theorem tells_of_failure? (method : String) (holds : JsonValue → α → Prop) (output : JsonValue) :
    (failure? output = none ∧ output.get? "err" = none) ∨
      ∃ text, failure? output = some text ∧ TellsResult method holds output (.error text) := by
  rw [failure?]
  cases herr : output.get? "err" with
  | none => exact Or.inl ⟨rfl, rfl⟩
  | some err =>
    cases err with
    | str text => exact Or.inr ⟨text, rfl, .failure herr⟩
    | _ => exact Or.inr ⟨"unknown error", rfl, .unknown herr nofun⟩

theorem tells_decode (method : String) {read : JsonValue → Except String α}
    {holds : JsonValue → α → Prop} (hread : ∀ value a, read value = .ok a ↔ holds value a)
    (output : JsonValue) : TellsResult method holds output (decode method read output) := by
  rw [decode]
  rcases tells_of_failure? method holds output with ⟨hnone, herr⟩ | ⟨text, hfailure, htells⟩
  · rw [hnone]
    dsimp only
    have hvalue := carries_getD output
    cases hresult : read ((output.get? "ok").getD output) with
    | ok a => exact .success herr hvalue ((hread _ a).mp hresult)
    | error problem =>
      refine .malformed problem herr hvalue fun a ha => ?_
      rw [(hread _ a).mpr ha] at hresult
      cases hresult
  · rw [hfailure]
    exact htells

theorem tells_decodeFlag (method : String) (output : JsonValue) :
    TellsFlag method output (decodeFlag method output) := by
  rw [decodeFlag]
  cases output with
  | bool value => exact .flag rfl
  | _ => exact .malformed nofun

/-- Paths are read as the texts that they are. -/
theorem readPaths_eq_ok_iff (value : JsonValue) (paths : List Path) :
    (do return (← value.toTexts "path string").map Path.mk : Except String (List Path)) =
        .ok paths ↔ value = .strings (paths.map Path.text) := by
  constructor
  · intro h
    cases htexts : value.toTexts "path string" with
    | error problem =>
      rw [htexts] at h
      cases h
    | ok texts =>
      rw [htexts] at h
      cases h
      rw [JsonValue.toTexts_eq_ok_iff.mp htexts, List.map_map]
      exact congrArg JsonValue.strings (List.map_id texts).symm
  · rintro rfl
    rw [JsonValue.toTexts_eq_ok_iff.mpr rfl]
    change Except.ok ((paths.map Path.text).map Path.mk) = _
    rw [List.map_map]
    exact congrArg Except.ok (List.map_id paths)

/-- The answer that is read from an output is the one that it tells. -/
theorem tells_answer (c : Call) (output : JsonValue) : c.Tells output (c.answer output) := by
  cases c with
  | read path =>
    exact ⟨_, rfl, tells_decode _ (fun value text => JsonValue.toText_eq_ok_iff) output⟩
  | write path contents =>
    refine ⟨_, rfl, ?_⟩
    rcases tells_of_failure? "write" (fun _ (_ : Unit) => True) output with
      ⟨hnone, herr⟩ | ⟨text, hfailure, htells⟩
    · rw [hnone]
      exact .success herr (carries_getD output) trivial
    · rw [hfailure]
      exact htells
  | present path => exact tells_decodeFlag "exists" output
  | isDir path => exact tells_decodeFlag "is_dir" output
  | list path =>
    exact ⟨_, rfl, tells_decode _ (fun value names => JsonValue.toTexts_eq_ok_iff) output⟩
  | walk root skip => exact ⟨_, rfl, tells_decode _ readPaths_eq_ok_iff output⟩

/-! ## Recorded answers -/

/-- An answer that can fail is read back if its value is. -/
theorem decode_encode (method : String) (write : α → JsonValue)
    (read : JsonValue → Except String α) (hread : ∀ a, read (write a) = .ok a)
    (answer : Except String α) : decode method read (encode write answer) = answer := by
  cases answer with
  | error text => rfl
  | ok a =>
    have hfailure : failure? (encode write (.ok a)) = none := rfl
    have hvalue : ((encode write (.ok a)).get? "ok").getD (encode write (.ok a)) = write a := rfl
    rw [decode, hfailure, hvalue, hread]

/-- The answer to a question is read back from its JSON value. -/
theorem answer_output (c : Call) (a : c.Answer) : c.answer (c.output a) = .ok a := by
  cases c with
  | read path =>
    exact congrArg Except.ok
      (decode_encode _ JsonValue.str (JsonValue.toText "a string") (fun _ => rfl) a)
  | write path contents =>
    cases a with
    | error text => rfl
    | ok _ => rfl
  | present path => rfl
  | isDir path => rfl
  | list path =>
    exact congrArg Except.ok
      (decode_encode _ _ _ (fun _ => JsonValue.toTexts_eq_ok_iff.mpr rfl) a)
  | walk root skip =>
    exact congrArg Except.ok
      (decode_encode _ _ _ (fun paths => (readPaths_eq_ok_iff _ paths).mpr rfl) a)

end Call

end ProjectOutline
