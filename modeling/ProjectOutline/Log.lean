import ProjectOutline.Text.Quoted
import ProjectOutline.Text.Search

/-!
Log records and the choice of which of them are shown. A filter is a list of directives, each of
which sets a threshold for the parts of the program whose names start with a text; the longest text
that fits a part decides, and a part that none fits stays silent.
-/

namespace ProjectOutline.Log

inductive Level where
  | error
  | warn
  | info
  | debug
  | trace
deriving DecidableEq, Repr, Inhabited

namespace Level

/-- Rank of a level: a threshold shows the records whose rank is not above its own. -/
def rank : Level → Nat
  | error => 1
  | warn => 2
  | info => 3
  | debug => 4
  | trace => 5

def name : Level → String
  | error => "ERROR"
  | warn => "WARN"
  | info => "INFO"
  | debug => "DEBUG"
  | trace => "TRACE"

def ofVerbosity : Nat → Level
  | 0 => warn
  | 1 => info
  | 2 => debug
  | _ => trace

end Level

/-- The value of a field: some are written in quotes. -/
inductive Value where
  | plain (text : String)
  | quoted (text : String)
deriving DecidableEq, Repr

def Value.render : Value → String
  | plain text => text
  | quoted text => Text.quote text

structure Record where
  level : Level
  /-- The part of the program that speaks. -/
  target : String
  message : String
  fields : List (String × Value)
deriving DecidableEq, Repr

/-- The line of a record: its level, its message and its fields. -/
def Record.line (r : Record) : String :=
  r.level.name ++ " " ++ r.message ++
    String.join (r.fields.map fun (name, value) => " " ++ name ++ "=" ++ value.render)

/-- A threshold for the parts whose names start with a text. Rank zero shows nothing. -/
structure Directive where
  target : String
  rank : Nat
deriving DecidableEq, Repr

abbrev Filter := List Directive

namespace Filter

/-- The rank that a word stands for, as a name in any case or as a digit. -/
def rankOf? (word : String) : Option Nat :=
  match String.ofList (word.toList.map Char.toLower) with
  | "off" | "0" => some 0
  | "error" | "1" => some 1
  | "warn" | "2" => some 2
  | "info" | "3" => some 3
  | "debug" | "4" => some 4
  | "trace" | "5" => some 5
  | _ => none

def isTargetChar (c : Char) : Bool :=
  c.isAlphanum || c == '_' || c == ':' || c == '-' || 0x80 ≤ c.toNat

def isTarget (word : String) : Bool :=
  word ≠ "" && word.toList.all isTargetChar

/-- What a directive of the filter text says: nothing, a threshold, or something unreadable. A
directive on spans enables no record. -/
def directive? (text : String) : Option (List Directive) :=
  match Text.split '=' text with
  | [word] =>
    match rankOf? word with
    | some rank => some [⟨"", rank⟩]
    | none =>
      if isTarget word then some [⟨word, Level.trace.rank⟩]
      else if isSpan word then some [] else none
  | [target, word] =>
    if isTarget target then
      match rankOf? word with
      | some rank => some [⟨target, rank⟩]
      | none => if word = "" then some [⟨target, Level.trace.rank⟩] else none
    else if isSpan target && ((rankOf? word).isSome || word = "") then some []
    else none
  | _ => none
where
  /-- Whether a text names spans in brackets. -/
  isSpan (word : String) : Bool :=
    match word.toList.dropWhile isTargetChar with
    | '[' :: rest => rest.getLast? = some ']'
    | _ => false

/-- The filter of a text: directives with commas between, or nothing if one cannot be read. -/
def ofText? (text : String) : Option Filter :=
  ((Text.split ',' text).filter (· ≠ "")).foldr (fun part rest => do
    let here ← directive? part
    let later ← rest
    return here ++ later) (some [])

def uniform (level : Level) : Filter := [⟨"", level.rank⟩]

/-- The better of two directives for a part: the longer text, and the later one of two equals. -/
def closer (target : String) (best : Option Directive) (d : Directive) : Option Directive :=
  if (Text.after? d.target target).isSome then
    match best with
    | some b => if d.target.length < b.target.length then best else some d
    | none => some d
  else best

def shows (filter : Filter) (r : Record) : Bool :=
  match filter.foldl (closer r.target) none with
  | some d => r.level.rank ≤ d.rank
  | none => false

/-- The filter of a run: the text of the environment if there is one and it can be read, else the
threshold for the verbosity flags. -/
def ofEnvironment (text : Option String) (verbosity : Nat) : Filter :=
  match text.map ofText? with
  | some (some filter) => filter
  | _ => uniform (Level.ofVerbosity verbosity)

end Filter

end ProjectOutline.Log
