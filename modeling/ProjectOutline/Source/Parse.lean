import ProjectOutline.Parser
import ProjectOutline.Peg.Match
import ProjectOutline.Source.Python
import ProjectOutline.Source.Script

/-!
Reading a source text into a syntax tree with the grammar of its language, and the parser that does
so. It refuses no grammar and gives up no text: what no rule takes is an error in the tree.
-/

namespace ProjectOutline.Source

open Peg (Piece)

def slice (s : Peg.Source) (start stop : Nat) : String :=
  String.ofList (s.extract start stop).toList

/-- The first positions of the field names in a list of pieces. -/
def fieldsOf (pieces : List Piece) : List (String × Nat) :=
  pieces.zipIdx.filterMap fun (p, i) =>
    match p with
    | .mk _ _ (some name) _ _ _ => some (name, i)
    | _ => none

mutual

def treeOf (s : Peg.Source) : Piece → SyntaxTree
  | .mk kind named _ start stop children =>
    .node kind (some (slice s start stop)) named (fieldsOf children) (treesOf s children)

def treesOf (s : Peg.Source) : List Piece → List SyntaxTree
  | [] => []
  | p :: rest => treeOf s p :: treesOf s rest

end

mutual

/-- Whether a piece holds text that could not be read. -/
def isBroken : Piece → Bool
  | .mk kind _ _ _ _ children => kind = "ERROR" || kind = "MISSING" || anyBroken children

/-- Whether one of some pieces holds text that could not be read. -/
def anyBroken : List Piece → Bool
  | [] => false
  | p :: rest => isBroken p || anyBroken rest

end

def piecesOf (grammar : ProjectOutline.Grammar) (s : Peg.Source) : Peg.Result :=
  match grammar with
  | .python => Python.grammar.parse s .module
  | .typescript => (Script.grammar false).parse s .program
  | .tsx => (Script.grammar true).parse s .program

def rootKind : ProjectOutline.Grammar → String
  | .python => "module"
  | .typescript | .tsx => "program"

/-- Reads a text. The root covers it from its first token to its end; a text that no rule takes is
one error. -/
def parse (grammar : ProjectOutline.Grammar) (text : String) : Parsed :=
  let s : Peg.Source := text.toList.toArray
  let children :=
    match piecesOf grammar s with
    | some (pieces, _) => pieces.flatMap fun
      | .mk kind named field start stop children =>
        if kind = rootKind grammar then children else [.mk kind named field start stop children]
    | none => [.mk "ERROR" true none 0 s.size []]
  let start := (children.head?.map Piece.start).getD s.size
  { root := treeOf s (.mk (rootKind grammar) true none start s.size children)
    hasErrors := anyBroken children }

def parser : Parser where
  refusal? _ := none
  tree? grammar text := some (parse grammar text)

end ProjectOutline.Source
