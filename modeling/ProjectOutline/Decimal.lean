/-!
Numbers that are not whole. A decimal text stands for the nearest binary number with 53 significant
bits, and such a number is written with the fewest digits that read back as it; of the candidates
with that many digits the nearest is taken.
-/

namespace ProjectOutline

/-- A number `mantissa * 2 ^ exponent` with at most 53 significant bits. -/
structure Binary where
  negative : Bool
  mantissa : Nat
  exponent : Int
deriving DecidableEq, Repr, Inhabited

/-- A number `coefficient * 10 ^ exponent`. -/
structure Decimal where
  negative : Bool
  coefficient : Nat
  exponent : Int
deriving DecidableEq, Repr, Inhabited

/-- The quotient of two numbers, rounded to the nearest; a half goes to the even neighbour. -/
def roundDiv (num den : Nat) : Nat :=
  let q := num / den
  let twice := 2 * (num % den)
  if twice < den then q
  else if den < twice then q + 1
  else q + q % 2

/-- The fraction `n * base ^ e` as a numerator and a denominator. -/
def scaled (base n : Nat) (e : Int) : Nat × Nat :=
  if 0 ≤ e then (n * Nat.pow base e.toNat, 1) else (n, Nat.pow base (-e).toNat)

namespace Decimal

def minExponent : Int := -1074

def maxExponent : Int := 971

/-- The nearest binary number to a fraction other than zero; nothing if the fraction is too
large. -/
def nearest? (negative : Bool) (num den : Nat) : Option Binary :=
  let size : Int := (num.log2 : Int) - den.log2
  let round (e : Int) : Nat :=
    if 0 ≤ e then roundDiv num (den * Nat.pow 2 e.toNat)
    else roundDiv (num * Nat.pow 2 (-e).toNat) den
  let e := max (size - 53) minExponent
  let e := if round e < Nat.pow 2 53 then e else e + 1
  let e := if round e < Nat.pow 2 53 then e else e + 1
  let m := round e
  let (m, e) := if m = Nat.pow 2 53 then (Nat.pow 2 52, e + 1) else (m, e)
  if maxExponent < e then none else some ⟨negative, m, e⟩

/-- The binary number that a decimal stands for; nothing if it is too large. -/
def toBinary? (d : Decimal) : Option Binary :=
  let digits : Int := (Nat.toDigits 10 d.coefficient).length
  if d.coefficient = 0 || digits + d.exponent < -400 then some ⟨d.negative, 0, minExponent⟩
  else if 400 < digits + d.exponent then none
  else
    let (num, den) := scaled 10 d.coefficient d.exponent
    nearest? d.negative num den

def strip : Nat → Nat → Int → Nat × Int
  | 0, n, e => (n, e)
  | fuel + 1, n, e => if n % 10 = 0 && n ≠ 0 then strip fuel (n / 10) (e + 1) else (n, e)

end Decimal

namespace Binary

/-- The fewest digits, at most 17, with which a fraction can be told from its neighbours. `low` and
`high` are the ends of the interval of fractions that read back as the number, over the denominator
`den` of the number itself; `even` tells whether the ends belong to it. -/
def shortestFrom (num low high den : Nat) (even : Bool) (top : Int) : Nat → Nat → Nat × Int
  | 0, _ => (0, 0)
  | fuel + 1, count =>
    let e : Int := top - count
    let (unit, parts) := scaled 10 1 e
    let below := num * parts / (den * unit)
    let fits (c : Nat) : Bool :=
      let value := c * unit * den
      if even then low * parts ≤ value && value ≤ high * parts
      else low * parts < value && value < high * parts
    let near := 2 * (num * parts) ≤ (2 * below + 1) * (den * unit)
    match fits below && below ≠ 0, fits (below + 1) with
    | true, true => (if near then below else below + 1, e)
    | true, false => (below, e)
    | false, true => (below + 1, e)
    | false, false => shortestFrom num low high den even top fuel (count + 1)

/-- The shortest decimal that reads back as a number. -/
def shortest (b : Binary) : Decimal :=
  if b.mantissa = 0 then ⟨b.negative, 0, 0⟩
  else
    let (num, den) := scaled 2 (4 * b.mantissa) (b.exponent - 2)
    let (high, _) := scaled 2 (4 * b.mantissa + 2) (b.exponent - 2)
    let edge := b.mantissa = Nat.pow 2 52 && Decimal.minExponent < b.exponent
    let (low, _) := scaled 2 (4 * b.mantissa - if edge then 1 else 2) (b.exponent - 2)
    let digits : Int := (Nat.toDigits 10 (num / den)).length
    let lead : Int := (Nat.toDigits 10 (den / num)).length
    let top : Int := if den ≤ num then digits else 2 - lead
    let (c, e) := shortestFrom num low high den (b.mantissa % 2 = 0) top 18 1
    let (c, e) := Decimal.strip 20 c e
    ⟨b.negative, c, e⟩

end Binary

namespace Decimal

/-- A decimal without an exponent, with at least one digit behind the point. -/
def render (d : Decimal) : String :=
  let digits := Nat.toDigits 10 d.coefficient
  let body :=
    if 0 ≤ d.exponent then
      String.ofList (digits ++
        List.replicate (if d.coefficient = 0 then 0 else d.exponent.toNat) '0') ++ ".0"
    else
      let places := (-d.exponent).toNat
      let padded := List.replicate (places + 1 - digits.length) '0' ++ digits
      let whole := padded.length - places
      String.ofList (padded.take whole) ++ "." ++ String.ofList (padded.drop whole)
  (if d.negative then "-" else "") ++ body

def value (digits : List Char) : Nat := digits.foldl (fun n c => n * 10 + (c.toNat - 48)) 0

def exponent? : List Char → Option Int
  | [] => some 0
  | mark :: rest =>
    if mark == 'e' || mark == 'E' then
      let (negative, digits) :=
        match rest with
        | '-' :: more => (true, more)
        | '+' :: more => (false, more)
        | _ => (false, rest)
      if digits.isEmpty || !digits.all Char.isDigit then none
      else some (if negative then -(value digits : Int) else value digits)
    else none

/-- Reads a decimal text: a sign, digits with or without a point, and an exponent. -/
def ofText? (text : String) : Option Decimal :=
  let (negative, body) :=
    match text.toList with
    | '-' :: rest => (true, rest)
    | '+' :: rest => (false, rest)
    | cs => (false, cs)
  let whole := body.takeWhile Char.isDigit
  let rest := body.dropWhile Char.isDigit
  let (places, rest) :=
    match rest with
    | '.' :: more => (more.takeWhile Char.isDigit, more.dropWhile Char.isDigit)
    | _ => ([], rest)
  if whole.isEmpty && places.isEmpty then none
  else (exponent? rest).map fun e => ⟨negative, value (whole ++ places), e - places.length⟩

/-- The shortest decimal of the binary number that a decimal stands for; nothing if it is too
large. -/
def normalize? (d : Decimal) : Option Decimal := d.toBinary?.map Binary.shortest

end Decimal

end ProjectOutline
