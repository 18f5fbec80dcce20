import ProjectOutline.Declaration
import ProjectOutline.Language
import ProjectOutline.SyntaxTree
import ProjectOutline.Text.Blank

/-!
The outline of a syntax tree: the functions, classes and top-level bindings that it declares, in
source order. One walk serves every language; a table of node kinds says what a node means, and the
walk carries the scope it stands in. Whatever lies inside a function, a method or a nested class is
local to it and never reported.
-/

namespace ProjectOutline

/-- The node kinds of a language that matter to its outline. -/
structure OutlineRules where
  classes : List String
  /-- Function declarations, reported at module level. -/
  functions : List String
  /-- Methods, listed under their class only. -/
  methods : List String
  /-- Other constructs whose contents are local. -/
  scopes : List String
  /-- Variable declarations whose declarators bind names. -/
  bindings : List String
  declarator : String
  /-- Wrappers that keep the scope of what they wrap. -/
  passthrough : List String
  /-- Wrappers whose bare identifier names an exported symbol. -/
  exports : List String
  /-- Field of the definition inside a wrapper. -/
  wrappedField : Option String
  bodyField : String
deriving DecidableEq, Repr

namespace OutlineRules

/-- Decorated definitions are wrappers, and functions double as methods. -/
def python : OutlineRules where
  classes := ["class_definition"]
  functions := ["function_definition"]
  methods := ["function_definition"]
  scopes := ["lambda"]
  bindings := []
  declarator := ""
  passthrough := ["decorated_definition"]
  exports := []
  wrappedField := some "definition"
  bodyField := "body"

/-- Export statements are wrappers, and namespaces hide their contents. -/
def javascript : OutlineRules where
  classes := ["class_declaration", "abstract_class_declaration"]
  functions := ["function_declaration", "generator_function_declaration"]
  methods := ["method_definition", "abstract_method_signature"]
  scopes := ["arrow_function", "function", "function_expression", "generator_function", "class",
    "internal_module", "module"]
  bindings := ["lexical_declaration", "variable_declaration"]
  declarator := "variable_declarator"
  passthrough := ["export_statement"]
  exports := ["export_statement"]
  wrappedField := none
  bodyField := "body"

def ofLanguage : Language → OutlineRules
  | .python => python
  | .javascript => javascript

def isClass (rules : OutlineRules) (kind : String) : Bool := rules.classes.contains kind

def isFunction (rules : OutlineRules) (kind : String) : Bool := rules.functions.contains kind

def isMethod (rules : OutlineRules) (kind : String) : Bool := rules.methods.contains kind

/-- Whether the contents of a node of that kind are local to it. -/
def opensScope (rules : OutlineRules) (kind : String) : Bool :=
  rules.isFunction kind || rules.isMethod kind || rules.scopes.contains kind

def isBinding (rules : OutlineRules) (kind : String) : Bool := rules.bindings.contains kind

def isPassthrough (rules : OutlineRules) (kind : String) : Bool := rules.passthrough.contains kind

def isExport (rules : OutlineRules) (kind : String) : Bool := rules.exports.contains kind

end OutlineRules

namespace Outline

/-- Where the walk stands. -/
inductive Scope where
  /-- A direct child of the module, or of a top-level wrapper. -/
  | topLevel
  /-- Inside control flow at module level. -/
  | moduleBlock
  /-- A direct child of the body of a module-level class. -/
  | classBody
  /-- Anywhere inside a function, a method or a nested class. -/
  | inner
deriving DecidableEq, Repr

def Scope.isModule : Scope → Bool
  | topLevel | moduleBlock => true
  | classBody | inner => false

def Scope.nested : Scope → Scope
  | topLevel | moduleBlock => moduleBlock
  | classBody | inner => inner

/-- The trimmed text of a node, unless it is blank or unknown. -/
def textOf? (t : SyntaxTree) : Option String :=
  t.text?.bind fun s => let s := Text.trim s; if s = "" then none else some s

def nameOf? (t : SyntaxTree) : Option String :=
  (t.field? "name").bind textOf?

/-- The name of a method that stands directly in a class body, seen through a wrapper. -/
def methodName? (rules : OutlineRules) (t : SyntaxTree) : Option String :=
  if rules.isMethod t.kind then nameOf? t
  else if rules.isPassthrough t.kind then
    (rules.wrappedField.bind t.field?).bind fun wrapped =>
      if rules.isMethod wrapped.kind then nameOf? wrapped else none
  else none

def classRecord (rules : OutlineRules) (t : SyntaxTree) : Declaration :=
  .classDef ((nameOf? t).getD Declaration.unnamedClass)
    (match t.field? rules.bodyField with
    | some body => body.namedChildren.filterMap (methodName? rules)
    | none => [])

mutual

/-- The names a binding target introduces, in source order. A pair binds its value side only, a
default its left side only. -/
def boundNames : SyntaxTree → List String
  | .node kind text named fields children =>
    if kind = "identifier" ∨ kind = "shorthand_property_identifier_pattern" then
      (textOf? (.node kind text named fields children)).toList
    else if kind = "pair_pattern" then
      match fields.lookup "value" with
      | some i => boundNamesAt i children
      | none => []
    else if kind = "assignment_pattern" ∨ kind = "object_assignment_pattern" then
      match fields.lookup "left" with
      | some i => boundNamesAt i children
      | none => []
    else boundNamesAll children

/-- The names of the target at a position of a list. -/
def boundNamesAt : Nat → List SyntaxTree → List String
  | _, [] => []
  | 0, t :: _ => boundNames t
  | i + 1, _ :: rest => boundNamesAt i rest

/-- The names of all targets of a list that are more than punctuation. -/
def boundNamesAll : List SyntaxTree → List String
  | [] => []
  | t :: rest => (if t.named then boundNames t else []) ++ boundNamesAll rest

end

/-- The names bound by the declarators of a variable declaration. -/
def declaredNames (rules : OutlineRules) (t : SyntaxTree) : List String :=
  (t.namedChildren.filter (·.kind = rules.declarator)).flatMap fun declarator =>
    match declarator.field? "name" with
    | some target => boundNames target
    | none => []

/-- Reports a function unless its name is reported already. -/
def addNew (out : List Declaration) (name : String) : List Declaration :=
  if out.any (·.name = name) then out else out ++ [.function name]

/-- Reports the bare identifiers of an export that are not reported already. -/
def addExported (t : SyntaxTree) (out : List Declaration) : List Declaration :=
  ((t.namedChildren.filter (·.kind = "identifier")).filterMap textOf?).foldl addNew out

mutual

/-- Adds the declarations of a node in its scope to those found so far. -/
def visit (rules : OutlineRules) (scope : Scope) :
    SyntaxTree → List Declaration → List Declaration
  | .node kind text named fields children, out =>
    let t := SyntaxTree.node kind text named fields children
    if rules.isClass kind then
      -- The methods are in the record; of the class only the body is visited.
      let (out, inside) :=
        if scope.isModule then (out ++ [classRecord rules t], Scope.classBody) else (out, .inner)
      match fields.lookup rules.bodyField with
      | some i => visitBelowAt rules inside i children out
      | none => out
    else if rules.opensScope kind then
      let out :=
        if scope.isModule && rules.isFunction kind then
          out ++ ((nameOf? t).map Declaration.function).toList
        else out
      visitAll rules .inner children out
    else if scope = .topLevel ∧ rules.isBinding kind then
      visitAll rules .moduleBlock children
        (out ++ (declaredNames rules t).map Declaration.function)
    else if rules.isPassthrough kind then
      let out := if scope = .topLevel ∧ rules.isExport kind then addExported t out else out
      visitAll rules scope children out
    else
      visitAll rules scope.nested children out

/-- Adds the declarations of all nodes of a list that are more than punctuation. -/
def visitAll (rules : OutlineRules) (scope : Scope) :
    List SyntaxTree → List Declaration → List Declaration
  | [], out => out
  | t :: rest, out =>
    visitAll rules scope rest (if t.named then visit rules scope t out else out)

def visitBelowAt (rules : OutlineRules) (scope : Scope) :
    Nat → List SyntaxTree → List Declaration → List Declaration
  | _, [], out => out
  | 0, t :: _, out => visitBelow rules scope t out
  | i + 1, _ :: rest, out => visitBelowAt rules scope i rest out

def visitBelow (rules : OutlineRules) (scope : Scope) :
    SyntaxTree → List Declaration → List Declaration
  | .node _ _ _ _ children, out => visitAll rules scope children out

end

/-- The declarations of a syntax tree, in source order. -/
def extract (language : Language) (root : SyntaxTree) : List Declaration :=
  visitBelow (OutlineRules.ofLanguage language) .topLevel root []

end Outline

end ProjectOutline
