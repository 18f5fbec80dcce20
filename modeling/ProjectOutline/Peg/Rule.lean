/-!
Parsing expressions as data. A grammar gives a rule to each of its symbols; a rule says which text
it takes from a place on and which pieces of a syntax tree it leaves. Blanks and comments before a
token belong to no rule: the grammar says how to pass over them.
-/

namespace ProjectOutline.Peg

abbrev Source := Array Char

/-- What the surroundings of a place ask for. -/
structure Context where
  /-- Column at which the enclosing block starts. -/
  indent : Nat
  /-- Whether line ends are blanks here. -/
  joined : Bool
  /-- Whether arrow functions carry no result type here. -/
  bareArrows : Bool
deriving Repr

def Context.outermost : Context where
  indent := 0
  joined := false
  bareArrows := false

/-- A node of a syntax tree over the span of text it covers. -/
inductive Piece where
  | mk (kind : String) (named : Bool) (field : Option String) (start stop : Nat)
      (children : List Piece)
deriving Inhabited

namespace Piece

def kind : Piece → String
  | mk kind _ _ _ _ _ => kind

def start : Piece → Nat
  | mk _ _ _ start _ _ => start

def stop : Piece → Nat
  | mk _ _ _ _ stop _ => stop

def commentKind : String := "comment"

def isComment (p : Piece) : Bool :=
  p.kind = commentKind

def comment (span : Nat × Nat) : Piece :=
  mk commentKind true none span.1 span.2 []

/-- Puts a piece under a field name unless it has one or is a comment. -/
def under (name : String) : Piece → Piece
  | mk kind named field start stop children =>
    if kind = commentKind then mk kind named field start stop children
    else mk kind named (field.or (some name)) start stop children

/-- Gathers pieces under a node. Comments before the first of them stay outside, and so does an
empty node's place, which is `place`. -/
def gather (kind : String) (place : Nat) (pieces : List Piece) : List Piece :=
  let comments := pieces.takeWhile isComment
  let inner := pieces.dropWhile isComment
  match inner with
  | [] => comments ++ [mk kind true none place place []]
  | first :: rest =>
    comments ++ [mk kind true none first.start ((first :: rest).getLast?.elim place stop) inner]

end Piece

/-- A parsing expression over the symbols `ν`. -/
inductive Rule (ν : Type) where
  /-- Takes nothing. -/
  | done
  /-- Takes one token, behind the blanks and comments before it. -/
  | token (kind : String) (named : Bool) (scan : Source → Nat → Option Nat)
  /-- Takes text that starts right here. -/
  | raw (kind : String) (named : Bool) (scan : Source → Nat → Option Nat)
  /-- Takes the text between lines, which leaves only its comments. -/
  | pass (scan : Context → Source → Nat → Option (List (Nat × Nat) × Nat))
  /-- Takes nothing, if the place allows it. -/
  | check (test : Context → Source → Nat → Bool)
  /-- The rule of a symbol. -/
  | use (symbol : ν)
  /-- One rule after another. -/
  | both (first second : Rule ν)
  /-- The first of two rules that applies. -/
  | either (first second : Rule ν)
  /-- A rule as often as it applies. -/
  | many (rule : Rule ν)
  /-- Takes nothing, if the rule does not apply. -/
  | absent (rule : Rule ν)
  /-- Gathers what a rule leaves under a node. -/
  | node (kind : String) (rule : Rule ν)
  /-- Puts what a rule leaves under a field name. -/
  | field (name : String) (rule : Rule ν)
  /-- A rule followed by continuations, each of which wraps what stands before it. -/
  | chain (base continuation : Rule ν)
  /-- A rule followed by exactly one continuation. -/
  | onto (base continuation : Rule ν)
  /-- Inside a continuation: gathers what stands before it, under the field name `left`, and what
  the rule leaves. -/
  | wrap (kind left : String) (rule : Rule ν)
  /-- A rule in other surroundings. -/
  | within (surroundings : Context → Source → Nat → Context) (rule : Rule ν)

namespace Rule

variable {ν : Type}

def seq : List (Rule ν) → Rule ν
  | [] => done
  | [r] => r
  | r :: rest => both r (seq rest)

def alt : List (Rule ν) → Rule ν
  | [] => absent done
  | [r] => r
  | r :: rest => either r (alt rest)

def opt (r : Rule ν) : Rule ν := either r done

def many1 (r : Rule ν) : Rule ν := both r (many r)

/-- Takes nothing, if the rule applies. -/
def ahead (r : Rule ν) : Rule ν := absent (absent r)

/-- A rule once or more often with separators between. -/
def sepBy1 (separator r : Rule ν) : Rule ν := both r (many (both separator r))

end Rule

/-- A grammar: a rule for each symbol, and the way over blanks and comments. -/
structure Grammar (ν : Type) where
  rule : ν → Rule ν
  /-- The comments from a place on, and the place behind them and the blanks around them. -/
  skip : Context → Source → Nat → List (Nat × Nat) × Nat

end ProjectOutline.Peg
