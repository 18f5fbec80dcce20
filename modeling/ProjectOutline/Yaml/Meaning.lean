import ProjectOutline.Decimal
import ProjectOutline.Text.Search
import ProjectOutline.Yaml.Token

/-!
What a plain scalar means: nothing, a truth value, a number or a text. Digits behind a leading zero
are a text.
-/

namespace ProjectOutline.Yaml

/-- The meaning of a scalar. -/
inductive Meaning where
  | null
  | bool (value : Bool)
  | int (value : Int)
  | decimal (number : Decimal)
  | infinite (negative : Bool)
  | notNumber
  | text (text : String)
deriving DecidableEq, Repr, Inhabited

def isNull (word : String) : Bool := ["null", "Null", "NULL", "~"].contains word

def bool? (word : String) : Option Bool :=
  if ["true", "True", "TRUE"].contains word then some true
  else if ["false", "False", "FALSE"].contains word then some false
  else none

def areDigits (cs : List Char) : Bool := cs.all Char.isDigit

def unsigned : List Char → List Char
  | '-' :: rest => rest
  | '+' :: rest => rest
  | cs => cs

/-- Whether a word is made of digits behind a leading zero, and so is no number. -/
def isZeroPadded (word : List Char) : Bool :=
  match unsigned word with
  | '0' :: rest => !rest.isEmpty && areDigits rest
  | _ => false

def digitIn? (base : Nat) (c : Char) : Option Nat :=
  let value? :=
    if c.isDigit then some (c.toNat - 48)
    else if 'a' ≤ c && c ≤ 'f' then some (c.toNat - 87)
    else if 'A' ≤ c && c ≤ 'F' then some (c.toNat - 55)
    else none
  value?.filter (· < base)

def natIn? (base : Nat) (cs : List Char) : Option Nat :=
  if cs.isEmpty then none
  else cs.foldl (fun n c => do return (← n) * base + (← digitIn? base c)) (some 0)

/-- The size of a whole number behind its sign, with the sign of the base if there is one. -/
def magnitude? : List Char → Option Nat
  | '0' :: 'x' :: rest => natIn? 16 rest
  | '0' :: 'o' :: rest => natIn? 8 rest
  | '0' :: 'b' :: rest => natIn? 2 rest
  | cs => natIn? 10 cs

def int? (word : List Char) : Option Int :=
  if isZeroPadded word then none
  else
    match word with
    | '-' :: rest => (magnitude? rest).map fun n => -(n : Int)
    | '+' :: rest => (magnitude? rest).map Int.ofNat
    | cs => (magnitude? cs).map Int.ofNat

/-- The bounds of the whole numbers that a word may stand for. -/
def isWhole (n : Int) : Bool := -(Int.pow 2 127) ≤ n && n < Int.pow 2 128

/-- The bounds of the whole numbers that fit into 64 bits. -/
def fitsWord (n : Int) : Bool := -(Int.pow 2 63) ≤ n && n < Int.pow 2 64

/-- The number that is not whole, for which a word stands. -/
def fraction? (word : String) : Option Meaning :=
  match word with
  | ".inf" | ".Inf" | ".INF" | "+.inf" | "+.Inf" | "+.INF" => some (.infinite false)
  | "-.inf" | "-.Inf" | "-.INF" => some (.infinite true)
  | ".nan" | ".NaN" | ".NAN" => some .notNumber
  | _ => ((Decimal.ofText? word).bind Decimal.normalize?).map .decimal

def wholeNumber? (word : String) : Option Int := (int? word.toList).filter isWhole

def plainMeaning (word : String) : Meaning :=
  if word = "" || isNull word then .null
  else
    match bool? word with
    | some b => .bool b
    | none =>
      match wholeNumber? word with
      | some n => .int n
      | none =>
        if isZeroPadded word.toList then .text word
        else (fraction? word).getD (.text word)

end ProjectOutline.Yaml
