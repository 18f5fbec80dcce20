/-!
Concrete syntax trees as the outline reads them: a kind, the covered text where it is known, and
children, some of them reachable under a field name.
-/

namespace ProjectOutline

/-- A node of a syntax tree. `fields` maps a field name to the position of a child. -/
inductive SyntaxTree where
  | node (kind : String) (text : Option String) (named : Bool) (fields : List (String × Nat))
      (children : List SyntaxTree)
deriving Repr, Inhabited

namespace SyntaxTree

def kind : SyntaxTree → String
  | node kind _ _ _ _ => kind

def text? : SyntaxTree → Option String
  | node _ text _ _ _ => text

/-- Whether the node is more than punctuation. -/
def named : SyntaxTree → Bool
  | node _ _ named _ _ => named

/-- Positions of the children that have a field name. -/
def fields : SyntaxTree → List (String × Nat)
  | node _ _ _ fields _ => fields

/-- All children, punctuation included. -/
def children : SyntaxTree → List SyntaxTree
  | node _ _ _ _ children => children

def namedChildren (t : SyntaxTree) : List SyntaxTree :=
  t.children.filter named

def field? (t : SyntaxTree) (name : String) : Option SyntaxTree :=
  (t.fields.lookup name).bind fun i => t.children[i]?

end SyntaxTree

end ProjectOutline
