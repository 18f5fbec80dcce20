import ProjectOutline.Peg.Rule
import ProjectOutline.Text.Blank

/-!
Scanning of single tokens in the characters of a text. A scanner is given a place and answers the
place behind the token that starts there, if one does.
-/

namespace ProjectOutline.Source

open Peg (Source)

/-- A token scanner. -/
abbrev Scan := Source → Nat → Option Nat

/-- The character at a place; behind the end there are only null characters. -/
def look (s : Source) (i : Nat) : Char :=
  s.getD i '\x00'

/-- The place behind the run of characters that satisfy `p`. -/
def runWhile (p : Char → Bool) (s : Source) (i : Nat) : Nat :=
  if i < s.size then
    if p (look s i) then runWhile p s (i + 1) else i
  else i
termination_by s.size - i

/-- One move of a scanner that goes over a text. -/
inductive Move where
  /-- Goes on at a place behind this one. -/
  | go (next : Nat)
  /-- The token ends at a place. -/
  | finish (stop : Nat)
  /-- There is no token here. -/
  | stuck

/-- Follows the moves from a place on; the end of the text ends the token only if a move says so. -/
def follow (move : Nat → Move) (s : Source) (i : Nat) : Option Nat :=
  match move i with
  | .finish stop => some stop
  | .stuck => none
  | .go next => if i < next ∧ i < s.size then follow move s next else none
termination_by s.size - i

def standsAt (s : Source) : List Char → Nat → Bool
  | [], _ => true
  | c :: rest, i => i < s.size && look s i == c && standsAt s rest (i + 1)

def literal (text : String) : Scan := fun s i =>
  if standsAt s text.toList i then some (i + text.length) else none

/-- Scans a fixed text unless one of some characters follows it. -/
def literalNot (text : String) (followers : List Char) : Scan := fun s i =>
  (literal text s i).bind fun stop =>
    if stop < s.size && followers.contains (look s stop) then none else some stop

def oneOf (texts : List String) : Scan := fun s i =>
  texts.findSome? fun text => literal text s i

def some1 (p : Char → Bool) : Scan := fun s i =>
  let stop := runWhile p s i
  if i < stop then some stop else none

def single (p : Char → Bool) : Scan := fun s i =>
  if i < s.size && p (look s i) then some (i + 1) else none

def isHex (c : Char) : Bool :=
  c.isDigit || ('a' ≤ c && c ≤ 'f') || ('A' ≤ c && c ≤ 'F')

def lineEnd (s : Source) (i : Nat) : Nat :=
  runWhile (fun c => c ≠ '\n') s i

end ProjectOutline.Source
