import ProjectOutline.Text.Blank
import ProjectOutline.Text.Search

/-!
Points in time. They are read from texts with a date, a time of day and an offset from universal
time, and written in universal time. Days are counted in the proleptic Gregorian calendar.
-/

namespace ProjectOutline

/-- A point in time. A leap second has between one and two thousand million nanoseconds. -/
structure Timestamp where
  /-- Days since the first of January 1970. -/
  day : Int
  /-- Seconds since midnight. -/
  second : Nat
  nanosecond : Nat
deriving DecidableEq, Repr, Inhabited

structure Date where
  year : Int
  month : Nat
  day : Nat
deriving DecidableEq, Repr, Inhabited

namespace Date

def isLeap (year : Int) : Bool := year % 4 = 0 && (year % 100 ≠ 0 || year % 400 = 0)

def monthLength (year : Int) (month : Nat) : Nat :=
  if month = 2 then (if isLeap year then 29 else 28)
  else if month = 4 || month = 6 || month = 9 || month = 11 then 30
  else 31

/-- The days from the first of January 1970 to a date. Years are counted from March, so that the
leap day comes last. -/
def toDays (d : Date) : Int :=
  let year := if d.month ≤ 2 then d.year - 1 else d.year
  let era := year / 400
  let yearOfEra := year % 400
  let month : Int := (d.month + 9) % 12
  let dayOfYear := (153 * month + 2) / 5 + (d.day - 1)
  era * 146097 + yearOfEra * 365 + yearOfEra / 4 - yearOfEra / 100 + dayOfYear - 719468

def ofDays (days : Int) : Date :=
  let shifted := days + 719468
  let era := shifted / 146097
  let dayOfEra := shifted % 146097
  let yearOfEra := (dayOfEra - dayOfEra / 1460 + dayOfEra / 36524 - dayOfEra / 146096) / 365
  let dayOfYear := dayOfEra - (365 * yearOfEra + yearOfEra / 4 - yearOfEra / 100)
  let month := (5 * dayOfYear + 2) / 153
  let day := dayOfYear - (153 * month + 2) / 5 + 1
  let month := if month < 10 then month + 3 else month - 9
  ⟨yearOfEra + era * 400 + (if month ≤ 2 then 1 else 0), month.toNat, day.toNat⟩

/-- The years that can be told. -/
def isTold (year : Int) : Bool := -262143 ≤ year && year ≤ 262142

end Date

namespace Timestamp

/-- Why a text is no point in time. -/
inductive Fault where
  | tooShort
  | invalid
  | outOfRange
  | impossible
  | trailing
deriving DecidableEq, Repr

def Fault.message : Fault → String
  | tooShort => "premature end of input"
  | invalid => "input contains invalid characters"
  | outOfRange => "input is out of range"
  | impossible => "no possible date and time matching input"
  | trailing => "trailing input"

def pastBlanks (cs : List Char) : List Char := cs.dropWhile Text.isBlank

def digitsValue (digits : List Char) : Nat := digits.foldl (fun n c => n * 10 + (c.toNat - 48)) 0

/-- Reads one to `width` digits, or all there are. -/
def number (width : Option Nat) (cs : List Char) : Except Fault (Nat × List Char) :=
  let run := cs.takeWhile Char.isDigit
  let digits := match width with
    | some w => run.take w
    | none => run
  if cs.isEmpty then .error .tooShort
  else if digits.isEmpty then .error .invalid
  else if Nat.pow 2 63 ≤ digitsValue digits then .error .outOfRange
  else .ok (digitsValue digits, cs.drop digits.length)

/-- Reads a year, which may have a sign and then any number of digits. -/
def year (cs : List Char) : Except Fault (Int × List Char) := do
  let (n, rest) : Int × List Char ←
    match pastBlanks cs with
    | '-' :: rest => do
      let (n, rest) ← number none rest
      .ok (-(n : Int), rest)
    | '+' :: rest => do
      let (n, rest) ← number none rest
      .ok ((n : Int), rest)
    | rest => do
      let (n, rest) ← number (some 4) rest
      .ok ((n : Int), rest)
  if -(Int.pow 2 31) ≤ n && n < Int.pow 2 31 then .ok (n, rest) else .error .outOfRange

def pair (low high : Nat) (cs : List Char) : Except Fault (Nat × List Char) := do
  let (n, rest) ← number (some 2) (pastBlanks cs)
  if low ≤ n && n ≤ high then .ok (n, rest) else .error .outOfRange

def literal (c : Char) (cs : List Char) : Except Fault (List Char) :=
  match pastBlanks cs with
  | [] => .error .tooShort
  | d :: rest => if c == d then .ok rest else .error .invalid

def fraction (cs : List Char) : Except Fault (Nat × List Char) :=
  match cs with
  | '.' :: rest => do
    let (n, _) ← number (some 9) rest
    let digits := rest.takeWhile Char.isDigit
    .ok (n * Nat.pow 10 (9 - min 9 digits.length), rest.drop digits.length)
  | _ => .ok (0, cs)

def offsetPair (cs : List Char) : Except Fault (Char × Char × List Char) :=
  match cs with
  | a :: b :: rest => .ok (a, b, rest)
  | [a] => if a.utf8Size < 2 then .error .tooShort else .error .invalid
  | [] => .error .tooShort

def offset (cs : List Char) : Except Fault (Int × List Char) := do
  match cs with
  | [] => .error .tooShort
  | c :: rest =>
    if c == 'Z' || c == 'z' then .ok (0, rest)
    else if (cs.take 3).map Char.toUpper == ['U', 'T', 'C'] then .ok (0, cs.drop 3)
    else if c == '+' || c == '-' || c == '\u2212' then
      let (h₁, h₂, rest) ← offsetPair rest
      if !(h₁.isDigit && h₂.isDigit) then .error .invalid
      else
        let rest := rest.dropWhile fun c => c == ':' || Text.isBlank c
        let (m₁, m₂, rest) ← offsetPair rest
        if !(m₁.isDigit && m₂.isDigit) then .error .invalid
        else if '6' ≤ m₁ then .error .outOfRange
        else
          let minutes : Int := digitsValue [h₁, h₂] * 60 + digitsValue [m₁, m₂]
          .ok (if c == '+' then minutes else -minutes, rest)
    else .error .invalid

/-- The point in time some minutes before another; nothing outside the years that can be told. -/
def back? (t : Timestamp) (minutes : Int) : Option Timestamp :=
  let total : Int := t.second - minutes * 60
  let moved : Timestamp := ⟨t.day + total / 86400, (total % 86400).toNat, t.nanosecond⟩
  if Date.isTold (Date.ofDays moved.day).year then some moved else none

def ofText (text : String) : Except Fault Timestamp := do
  let (year, cs) ← year text.toList
  let cs ← literal '-' cs
  let (month, cs) ← pair 1 12 cs
  let cs ← literal '-' cs
  let (day, cs) ← pair 1 31 cs
  let cs ← match cs with
    | [] => Except.error Fault.tooShort
    | c :: rest => if c == 't' || c == 'T' || c == ' ' then .ok rest else .error .invalid
  let (hour, cs) ← pair 0 23 cs
  let cs ← literal ':' cs
  let (minute, cs) ← pair 0 59 cs
  let cs ← literal ':' cs
  let (second, cs) ← pair 0 60 cs
  let (nano, cs) ← fraction cs
  let (away, cs) ← offset (pastBlanks cs)
  if !(pastBlanks cs).isEmpty then .error .trailing
  else if !Date.isTold year || Date.monthLength year month < day then .error .outOfRange
  else if 24 * 60 ≤ away.natAbs then .error .outOfRange
  else
    let leap := second = 60
    let local' : Timestamp :=
      { day := Date.toDays ⟨year, month, day⟩
        second := hour * 3600 + minute * 60 + (if leap then 59 else second)
        nanosecond := nano + if leap then 1000000000 else 0 }
    match local'.back? away with
    | some t => .ok t
    | none => .error .impossible

def padded (width n : Nat) : String :=
  let digits := Nat.toDigits 10 n
  String.ofList (List.replicate (width - digits.length) '0' ++ digits)

/-- A year: four digits, or a sign and at least four digits. -/
def yearText (year : Int) : String :=
  if 0 ≤ year && year ≤ 9999 then padded 4 year.toNat
  else (if year < 0 then "-" else "+") ++ padded 4 year.natAbs

/-- The fraction of a second with as many groups of three digits as it needs. -/
def fractionText (nano : Nat) : String :=
  if nano = 0 then ""
  else if nano % 1000000 = 0 then "." ++ padded 3 (nano / 1000000)
  else if nano % 1000 = 0 then "." ++ padded 6 (nano / 1000)
  else "." ++ padded 9 nano

/-- The date and the time of day, with a sign between the numbers of the time. -/
def clockText (t : Timestamp) (sign : String) : String :=
  let date := Date.ofDays t.day
  let leap := if 1000000000 ≤ t.nanosecond then 1 else 0
  yearText date.year ++ "-" ++ padded 2 date.month ++ "-" ++ padded 2 date.day ++ "T" ++
    padded 2 (t.second / 3600) ++ sign ++ padded 2 (t.second / 60 % 60) ++ sign ++
    padded 2 (t.second % 60 + leap)

def render (t : Timestamp) : String :=
  t.clockText ":" ++ fractionText (t.nanosecond % 1000000000) ++ "Z"

/-- The text of a point in time as it can stand in a file name. -/
def stamp (t : Timestamp) : String := t.clockText "-"

def ofSeconds (seconds nanosecond : Nat) : Timestamp :=
  ⟨seconds / 86400, seconds % 86400, nanosecond⟩

end Timestamp

end ProjectOutline
