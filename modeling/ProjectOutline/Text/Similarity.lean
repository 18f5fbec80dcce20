/-!
How alike two words are, between zero and one, by the Jaro measure: characters match if they are
equal and not too far apart, and matches in another order count half.
-/

namespace ProjectOutline.Text

/-- The place of the first free copy of a character within bounds. `free` tells for each place of
the word whether it is still unmatched. -/
def freeAt? (c : Char) (low high : Nat) (word : List Char) (free : List Bool) : Option Nat :=
  ((word.zip free).zipIdx.find? fun ((d, isFree), i) =>
    low ≤ i && i < high && c == d && isFree).map (·.2)

/-- Matches the characters of a word, from a place on, with those of another: the characters that
match, in order, and which places of the other word stay free. -/
def matchFrom (range : Nat) (other : List Char) :
    Nat → List Char → List Bool → List Char × List Bool
  | _, [], free => ([], free)
  | i, c :: rest, free =>
    match freeAt? c (i - range) (i + range + 1) other free with
    | some j =>
      let (cs, free) := matchFrom range other (i + 1) rest (free.set j false)
      (c :: cs, free)
    | none => matchFrom range other (i + 1) rest free

def similarity (a b : String) : Float :=
  let as := a.toList
  let bs := b.toList
  if as.isEmpty && bs.isEmpty then 1.0
  else
    let range := max as.length bs.length / 2 - 1
    let (matched, free) := matchFrom range bs 0 as (bs.map fun _ => true)
    let other := ((bs.zip free).filter fun (_, isFree) => !isFree).map (·.1)
    if matched.isEmpty then 0.0
    else
      let m := matched.length
      let swapped := ((matched.zip other).filter fun (c, d) => c ≠ d).length / 2
      (m.toFloat / as.length.toFloat + m.toFloat / bs.length.toFloat +
        (m - swapped).toFloat / m.toFloat) / 3.0

end ProjectOutline.Text
