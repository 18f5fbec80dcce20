import ProjectOutline.Peg.Rule

/-!
Matching a rule against a text. Choice is ordered: the first alternative that applies is taken, and
repetition takes as much as it can. Every step of the matching costs one unit of a budget, so that a
rule that calls itself without taking any text fails instead of running on.
-/

namespace ProjectOutline.Peg

variable {ν : Type}

/-- What a rule leaves: its pieces and the place behind the text it took. -/
abbrev Result := Option (List Piece × Nat)

def takeToken (kind : String) (named : Bool) (scan : Source → Nat → Option Nat) (source : Source)
    (comments : List (Nat × Nat)) (place : Nat) : Result :=
  (scan source place).map fun stop =>
    (comments.map Piece.comment ++ [Piece.mk kind named none place stop []], stop)

/-- Matches a rule from a place on. `before` holds the pieces that a continuation wraps. -/
def Rule.run (g : Grammar ν) (source : Source) :
    Nat → Context → List Piece → Nat → Rule ν → Result
  | 0, _, _, _, _ => none
  | budget + 1, context, before, place, rule =>
    match rule with
    | .done => some ([], place)
    | .token kind named scan =>
      let (comments, start) := g.skip context source place
      takeToken kind named scan source comments start
    | .raw kind named scan => takeToken kind named scan source [] place
    | .pass scan =>
      (scan context source place).map fun (comments, stop) => (comments.map Piece.comment, stop)
    | .check test => if test context source place then some ([], place) else none
    | .use symbol => run g source budget context before place (g.rule symbol)
    | .both first second =>
      match run g source budget context before place first with
      | none => none
      | some (pieces, stop) =>
        match run g source budget context before stop second with
        | none => none
        | some (others, stop) => some (pieces ++ others, stop)
    | .either first second =>
      match run g source budget context before place first with
      | some result => some result
      | none => run g source budget context before place second
    | .many inner =>
      match run g source budget context [] place inner with
      | none => some ([], place)
      | some (pieces, stop) =>
        if stop ≤ place then some ([], place)
        else
          match run g source budget context [] stop (.many inner) with
          | some (others, stop) => some (pieces ++ others, stop)
          | none => some (pieces, stop)
    | .absent inner =>
      match run g source budget context [] place inner with
      | some _ => none
      | none => some ([], place)
    | .node kind inner =>
      (run g source budget context [] place inner).map fun (pieces, stop) =>
        (Piece.gather kind place pieces, stop)
    | .field name inner =>
      (run g source budget context before place inner).map fun (pieces, stop) =>
        (pieces.map (Piece.under name), stop)
    | .chain base continuation =>
      match run g source budget context [] place base with
      | none => none
      | some (pieces, stop) => some (extend g source budget context pieces stop continuation)
    | .onto base continuation =>
      match run g source budget context [] place base with
      | none => none
      | some (pieces, stop) => run g source budget context pieces stop continuation
    | .wrap kind left inner =>
      (run g source budget context [] place inner).map fun (pieces, stop) =>
        let before := if left = "" then before else before.map (Piece.under left)
        (Piece.gather kind place (before ++ pieces), stop)
    | .within surroundings inner =>
      run g source budget (surroundings context source place) before place inner
where
  /-- Adds continuations as long as one applies. -/
  extend (g : Grammar ν) (source : Source) :
      Nat → Context → List Piece → Nat → Rule ν → List Piece × Nat
    | 0, _, before, place, _ => (before, place)
    | budget + 1, context, before, place, continuation =>
      match run g source budget context before place continuation with
      | none => (before, place)
      | some (pieces, stop) =>
        if stop ≤ place then (before, place)
        else extend g source budget context pieces stop continuation

/-- The budget for a text: far more steps than any nesting of the text can ask for. -/
def budgetFor (source : Source) : Nat :=
  2000 * (source.size + 16)

def Grammar.parse (g : Grammar ν) (source : Source) (start : ν) : Result :=
  (Rule.use start).run g source (budgetFor source) .outermost [] 0

end ProjectOutline.Peg
