import ProjectOutline.Failure
import ProjectOutline.Language
import ProjectOutline.SyntaxTree
import ProjectOutline.Text.Search

/-!
Parsers of source texts. A parser is a service from outside: it may refuse a grammar, and it may
give up a text. What is decided here is which grammar a text is read with, that a text ends in a
line end, and which failure a refusal is.
-/

namespace ProjectOutline

/-- What a parser makes of a text. -/
structure Parsed where
  root : SyntaxTree
  /-- Whether some of the text belongs to no rule. -/
  hasErrors : Bool

structure Parser where
  /-- Why a grammar cannot be used, if it cannot. -/
  refusal? : Grammar → Option String
  /-- The tree of a text, unless the parser gives up. -/
  tree? : Grammar → String → Option Parsed

namespace Parser

def allow (parser : Parser) (grammar : Grammar) : Except Failure Unit :=
  match parser.refusal? grammar with
  | none => .ok ()
  | some reason => .error (.grammarUnavailable grammar.name reason)

/-- Tries all grammars before any text is read. -/
def load (parser : Parser) : Except Failure Unit := do
  parser.allow .python
  parser.allow .typescript
  parser.allow .tsx

def withLineEnd (text : String) : String :=
  if Text.endsIn "\n" text then text else text ++ "\n"

/-- Reads the text of a file with the grammar of its path. -/
def parse (parser : Parser) (path : Path) (text : String) :
    Except Failure (Language × Parsed) :=
  match Grammar.ofPath? path with
  | none => .error (.unsupportedFile path)
  | some grammar => do
    parser.allow grammar
    match parser.tree? grammar (withLineEnd text) with
    | none => .error (.parse path)
    | some parsed => .ok (grammar.language, parsed)

end Parser

end ProjectOutline
