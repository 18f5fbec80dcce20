import ProjectOutline.Decimal

/-!
JSON values, as recordings hold them. Objects keep their members in the order of the keys.
-/

namespace ProjectOutline

inductive JsonValue where
  | null
  | bool (value : Bool)
  | int (value : Int)
  | decimal (number : Decimal)
  | str (text : String)
  | arr (items : List JsonValue)
  | obj (members : List (String × JsonValue))
deriving Repr, Inhabited

namespace JsonValue

def get? (key : String) : JsonValue → Option JsonValue
  | obj members => members.lookup key
  | _ => none

def text? : JsonValue → Option String
  | str text => some text
  | _ => none

def bool? : JsonValue → Option Bool
  | bool value => some value
  | _ => none

/-- Puts a member under its key in the order of the keys, in place of an older one. -/
def insertMember (key : String) (value : JsonValue) :
    List (String × JsonValue) → List (String × JsonValue)
  | [] => [(key, value)]
  | (k, v) :: rest =>
    if k = key then (key, value) :: rest
    else if key < k then (key, value) :: (k, v) :: rest
    else (k, v) :: insertMember key value rest

def strings (texts : List String) : JsonValue := arr (texts.map str)

end JsonValue

end ProjectOutline
