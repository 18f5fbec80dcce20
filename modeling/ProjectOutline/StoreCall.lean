import ProjectOutline.JsonValue
import ProjectOutline.Store
import ProjectOutline.Text.Quoted

/-!
The questions to a store and their answers as JSON values. A truth value stands for itself; an
answer that can fail is an object with the member `ok` or the member `err`.
-/

namespace ProjectOutline

def JsonValue.words : JsonValue → String
  | null => "null"
  | bool value => "boolean \x60" ++ toString value ++ "\x60"
  | int value => "integer \x60" ++ toString value ++ "\x60"
  | decimal number => "floating point \x60" ++ number.render ++ "\x60"
  | str text => "string " ++ Text.quote text
  | arr _ => "sequence"
  | obj _ => "map"

def JsonValue.unexpected {α : Type} (expected : String) (value : JsonValue) : Except String α :=
  .error ("invalid type: " ++ value.words ++ ", expected " ++ expected)

def JsonValue.toText (expected : String) : JsonValue → Except String String
  | str text => .ok text
  | value => value.unexpected expected

def JsonValue.toTexts (expected : String) : JsonValue → Except String (List String)
  | arr items => items.mapM (toText expected)
  | value => value.unexpected "a sequence"

namespace Call

def service : String := "fs"

def method : Call → String
  | read _ => "read_to_string"
  | write _ _ => "write"
  | present _ => "exists"
  | isDir _ => "is_dir"
  | list _ => "list_dir"
  | walk _ _ => "walk_files"

def input : Call → JsonValue
  | read path | present path | isDir path | list path => .obj [("path", .str path.text)]
  | write path contents => .obj [("contents", .str contents), ("path", .str path.text)]
  | walk root skip => .obj [("path", .str root.text), ("skip_dirs", .strings skip)]

def encode {α : Type} (f : α → JsonValue) : Except String α → JsonValue
  | .ok a => .obj [("ok", f a)]
  | .error text => .obj [("err", .str text)]

def output : (c : Call) → c.Answer → JsonValue
  | read _, answer => encode .str answer
  | write _ _, answer => encode (fun _ => .null) answer
  | present _, answer => .bool answer
  | isDir _, answer => .bool answer
  | list _, answer => encode .strings answer
  | walk _ _, answer => encode (fun paths => .strings (paths.map Path.text)) answer

def failure? (output : JsonValue) : Option String :=
  (output.get? "err").map fun err => err.text?.getD "unknown error"

/-- Reads an answer that can fail. An output that tells neither success nor failure is the value
itself. -/
def decode {α : Type} (method : String) (f : JsonValue → Except String α) (output : JsonValue) :
    Except String α :=
  match failure? output with
  | some text => .error text
  | none =>
    match f ((output.get? "ok").getD output) with
    | .ok a => .ok a
    | .error problem => .error (service ++ "::" ++ method ++ ": failed to deserialize: " ++ problem)

def decodeFlag (method : String) (output : JsonValue) : Except Fault Bool :=
  match output.bool? with
  | some value => .ok value
  | none => .error ⟨service ++ "::" ++ method ++ ": expected boolean output"⟩

def answer : (c : Call) → JsonValue → Except Fault c.Answer
  | read _, output => .ok (decode "read_to_string" (·.toText "a string") output)
  | write _ _, output =>
    .ok (match failure? output with
      | some text => .error text
      | none => .ok ())
  | present _, output => decodeFlag "exists" output
  | isDir _, output => decodeFlag "is_dir" output
  | list _, output => .ok (decode "list_dir" (·.toTexts "a string") output)
  | walk _ _, output =>
    .ok (decode "walk_files"
      (fun value => do return (← value.toTexts "path string").map Path.mk) output)

end Call

end ProjectOutline
