import ProjectOutline.Source.ScriptTokens

/-!
The grammar of JavaScript and TypeScript, with or without embedded markup. Statements, declarations
and class members carry the node kinds that the outline rules name; the grammar is generous where a
program that is accepted has the same declarations. A statement or member that cannot be read leaves
an error node, and a brace that is still open at the end of the text is taken as closed there.
-/

namespace ProjectOutline.Source.Script

open Peg (Source Context Rule Piece Grammar)
open Peg.Rule

inductive Symbol where
  | program | statement | declaration | block | semicolon | close
  | exportStatement | importStatement | importAlias | exportClause | decorator
  | functionDeclaration | generatorDeclaration | functionSignature
  | classDeclaration | abstractClassDeclaration | classTail | classBody | classMember
  | methodDefinition | abstractMethodSignature | methodSignature | fieldDefinition
  | indexSignature | staticBlock
  | lexicalDeclaration | variableDeclaration | declarator
  | enumDeclaration | interfaceDeclaration | typeAlias | ambientDeclaration | moduleDeclaration
  | namespaceDeclaration
  | ifStatement | switchStatement | forStatement | forInStatement | whileStatement | doStatement
  | tryStatement | withStatement | breakStatement | continueStatement | debuggerStatement
  | returnStatement | throwStatement | emptyStatement | labeledStatement | expressionStatement
  | pattern | objectPattern | arrayPattern | patternOrDefault | propertyName | parameters
  | parameter | callSignature | memberEnd
  | expression | assign | arrow | arrowBody | yieldExpression | conditional
  | coalesce | logicalOr | logicalAnd | bitOr | bitXor | bitAnd | equality | relational | shift
  | additive | multiplicative | power | unary | increment | access | newExpression | primary
  | parenthesized | functionExpression | classExpression | array | object | objectMember | arguments
  | stringLiteral | templateString | regex | markup | markupChild | markupAttribute | markupTag
  | typeExpr | unionType | intersectionType | prefixedType | postfixType | primaryType | objectType
  | typeMember | typeParameters | typeArguments | typeMark | returnType | functionType
deriving DecidableEq, Repr, Inhabited

def sym (text : String) : Rule Symbol := .token text false (literal text)

/-- A token of fixed punctuation that some characters may not follow. -/
def op (text : String) (followers : List Char) : Rule Symbol :=
  .token text false (literalNot text followers)

def kw (text : String) : Rule Symbol := .token text false (word text)

def ident (kind : String) : Rule Symbol := .token kind true identifier

/-- A name under a node kind, reserved or not. -/
def anyName (kind : String) : Rule Symbol := .token kind true name

def openBrace : Rule Symbol := sym "\x7b"

def parens (r : Rule Symbol) : Rule Symbol := seq [sym "(", r, sym ")"]

/-- A keyword that is a modifier of what follows and not the name itself. -/
def modifier (text : String) : Rule Symbol :=
  seq [kw text, absent (.token "" false (single fun c =>
    ['(', ')', '=', ';', '\x7d', '?', '!', ':', '<', ','].contains c))]

/-- A modifier that has to stand on the line of what follows. -/
def lineModifier (text : String) : Rule Symbol :=
  seq [modifier text, .check sameLine]

/-- Items separated by commas, some of which may be missing. -/
def holes (r : Rule Symbol) : Rule Symbol :=
  seq [opt r, many (seq [sym ",", opt r])]

/-- Reads a rule without result types on arrow functions. -/
def bare (r : Rule Symbol) : Rule Symbol :=
  .within (fun c _ _ => { c with bareArrows := true }) r

/-- Reads a rule with result types on arrow functions. -/
def full (r : Rule Symbol) : Rule Symbol :=
  .within (fun c _ _ => { c with bareArrows := false }) r

/-- One token of text that belongs to no statement. -/
def stray : Scan := fun s i =>
  if i < s.size then some ((name s i).getD (i + 1)) else none

/-- Text that belongs to no statement or member, unless it closes what encloses it. -/
def recover : Rule Symbol :=
  seq [absent (sym "\x7d"), .node "ERROR" (.token "" false stray)]

/-- Statements up to the brace that closes them. -/
def braced (items : Rule Symbol) : Rule Symbol :=
  seq [openBrace, full items, .use .close]

def binary (operand : Symbol) (operators : List (Rule Symbol)) : Rule Symbol :=
  chain (.use operand) (wrap "binary_expression" "left"
    (seq [field "operator" (alt operators), field "right" (.use operand)]))

def accessibility : Rule Symbol :=
  node "accessibility_modifier" (alt [modifier "public", modifier "private", modifier "protected"])

def memberModifiers (extra : List String) : Rule Symbol :=
  let words := ["static", "override", "readonly", "declare", "accessor"] ++ extra
  many (alt (accessibility :: words.map modifier))

def methodMarks : Rule Symbol :=
  seq [opt (lineModifier "async"), opt (sym "*"), opt (alt [modifier "get", modifier "set"])]

/-- The tail of a type declaration's or class's name. -/
def typeName : Rule Symbol := field "name" (ident "type_identifier")

def dotted (kind first : String) : Rule Symbol :=
  chain (ident first) (wrap kind "" (seq [sym ".", anyName "property_identifier"]))

def heritage : Rule Symbol :=
  opt (node "class_heritage" (alt [
    seq [node "extends_clause" (seq [kw "extends", field "value" (.use .access),
        opt (.use .typeArguments)]),
      opt (node "implements_clause" (seq [kw "implements", sepBy1 (sym ",") (.use .typeExpr)]))],
    node "implements_clause" (seq [kw "implements", sepBy1 (sym ",") (.use .typeExpr)])]))

def fromClause : Rule Symbol :=
  seq [kw "from", field "source" (.use .stringLiteral),
    opt (node "import_attribute" (seq [alt [kw "with", kw "assert"], .use .object]))]

def quoted (quote : Char) : Rule Symbol :=
  let mark := String.ofList [quote]
  seq [sym mark, many (alt [.raw "string_fragment" true (stringFragment quote),
    .raw "escape_sequence" true escape]), .raw mark false (literal mark)]

def attributeQuoted (quote : Char) : Rule Symbol :=
  let mark := String.ofList [quote]
  node "string" (seq [sym mark, opt (.raw "string_fragment" true (attributeText quote)),
    .raw mark false (literal mark)])

def updateOperators : List (Rule Symbol) :=
  ["**=", "*=", "/=", "%=", "+=", "-=", "<<=", ">>>=", ">>=", "&&=", "||=", "??=", "&=", "^=",
    "|="].map sym

def statementRule : Symbol → Rule Symbol
  | .program => node "program" (seq [opt (.token "hash_bang_line" true fun s i =>
      if standsAt s ['#', '!'] i then some (lineEnd s i) else none),
      many (alt [.use .statement, node "ERROR" (.token "" false stray)]),
      .pass fun c s i =>
        let (comments, stop) := skip c s i
        if s.size ≤ stop then some (comments, stop) else none])
  | .close => alt [sym "\x7d", seq [.check atEnd, .raw "MISSING" false fun _ i => some i]]
  | .semicolon => alt [sym ";", .check semicolonImplied]
  | .block => node "statement_block" (braced (many (alt [.use .statement, recover])))
  | .statement => alt [.use .block, .use .exportStatement, .use .importStatement, .use .importAlias,
      .use .declaration, .use .ifStatement, .use .switchStatement, .use .forInStatement,
      .use .forStatement, .use .whileStatement, .use .doStatement, .use .tryStatement,
      .use .withStatement, .use .breakStatement, .use .continueStatement, .use .debuggerStatement,
      .use .returnStatement, .use .throwStatement, .use .emptyStatement, .use .labeledStatement,
      .use .expressionStatement]
  | .declaration => alt [.use .functionDeclaration, .use .generatorDeclaration,
      .use .functionSignature, .use .classDeclaration, .use .abstractClassDeclaration,
      .use .moduleDeclaration, .use .namespaceDeclaration, .use .typeAlias, .use .enumDeclaration,
      .use .interfaceDeclaration, .use .lexicalDeclaration, .use .variableDeclaration,
      .use .ambientDeclaration, .use .importAlias]
  | .exportStatement => node "export_statement" (alt [
      seq [kw "export", alt [
        seq [sym "*", fromClause, .use .semicolon],
        seq [node "namespace_export" (seq [sym "*", kw "as",
          alt [anyName "identifier", .use .stringLiteral]]), fromClause, .use .semicolon],
        seq [opt (kw "type"), .use .exportClause, opt fromClause, .use .semicolon],
        seq [kw "type", sym "*", opt (seq [kw "as", anyName "identifier"]), fromClause,
          .use .semicolon],
        seq [op "=" ['=', '>'], .use .expression, .use .semicolon],
        seq [kw "as", kw "namespace", ident "identifier", .use .semicolon]]],
      seq [many (field "decorator" (.use .decorator)), kw "export", alt [
        seq [kw "default", alt [
          field "declaration" (alt [.use .functionDeclaration, .use .generatorDeclaration,
            .use .functionSignature, .use .classDeclaration, .use .abstractClassDeclaration,
            .use .interfaceDeclaration, .use .enumDeclaration]),
          seq [field "value" (.use .expression), .use .semicolon]]],
        field "declaration" (.use .declaration)]]])
  | .exportClause => node "export_clause" (seq [openBrace,
      holes (node "export_specifier" (seq [opt (seq [kw "type", absent (alt [sym ",", sym "\x7d"]),
          absent (seq [kw "as", absent (kw "as")])]),
        field "name" (alt [anyName "identifier", .use .stringLiteral]),
        opt (seq [kw "as", field "alias" (alt [anyName "identifier", .use .stringLiteral])])])),
      sym "\x7d"])
  | .importStatement => node "import_statement" (seq [kw "import", alt [
      seq [.use .stringLiteral,
        opt (node "import_attribute" (seq [alt [kw "with", kw "assert"], .use .object]))],
      seq [opt (seq [alt [kw "type", kw "typeof"], absent (alt [kw "from", sym ",", sym "="])]),
        alt [
          seq [node "import_require_clause" (seq [ident "identifier", sym "=", kw "require",
            parens (field "source" (.use .stringLiteral))])],
          seq [node "import_clause" (alt [
            node "namespace_import" (seq [sym "*", kw "as", ident "identifier"]),
            node "named_imports" (seq [openBrace, holes (node "import_specifier" (seq [
              opt (seq [kw "type", absent (alt [sym ",", sym "\x7d"]),
                absent (seq [kw "as", absent (kw "as")])]),
              field "name" (alt [anyName "identifier", .use .stringLiteral]),
              opt (seq [kw "as", field "alias" (anyName "identifier")])])), sym "\x7d"]),
            seq [ident "identifier", opt (seq [sym ",", alt [
              node "namespace_import" (seq [sym "*", kw "as", ident "identifier"]),
              node "named_imports" (seq [openBrace, holes (node "import_specifier" (seq [
                opt (seq [kw "type", absent (alt [sym ",", sym "\x7d"]),
                  absent (seq [kw "as", absent (kw "as")])]),
                field "name" (alt [anyName "identifier", .use .stringLiteral]),
                opt (seq [kw "as", field "alias" (anyName "identifier")])])), sym "\x7d"])]])]]),
            fromClause]]]], .use .semicolon])
  | .importAlias => node "import_alias" (seq [kw "import", opt (seq [kw "type", absent (sym "=")]),
      ident "identifier", op "=" ['=', '>'], dotted "nested_identifier" "identifier",
      .use .semicolon])
  | .decorator => node "decorator" (seq [sym "@", chain
      (alt [.use .parenthesized, ident "identifier"])
      (alt [wrap "member_expression" "object" (seq [sym ".", field "property"
          (anyName "property_identifier")]),
        wrap "call_expression" "function" (seq [opt (.use .typeArguments),
          field "arguments" (.use .arguments)])])])
  | .functionDeclaration => node "function_declaration" (seq [
      opt (seq [kw "async", .check sameLine]), kw "function", field "name" (ident "identifier"),
      .use .callSignature, field "body" (.use .block)])
  | .generatorDeclaration => node "generator_function_declaration" (seq [
      opt (seq [kw "async", .check sameLine]), kw "function", sym "*",
      field "name" (ident "identifier"), .use .callSignature, field "body" (.use .block)])
  | .functionSignature => node "function_signature" (seq [
      opt (seq [kw "async", .check sameLine]), kw "function", opt (sym "*"),
      field "name" (ident "identifier"), .use .callSignature, .use .semicolon])
  | .classDeclaration => node "class_declaration" (seq [many (field "decorator" (.use .decorator)),
      kw "class", absent (alt [kw "extends", kw "implements"]), typeName, .use .classTail])
  | .abstractClassDeclaration => node "abstract_class_declaration" (seq [
      many (field "decorator" (.use .decorator)), kw "abstract", kw "class", typeName,
      .use .classTail])
  | .classTail => seq [opt (field "type_parameters" (.use .typeParameters)), heritage,
      field "body" (.use .classBody)]
  | .classBody =>
      node "class_body" (braced (many (alt [.use .decorator, .use .classMember, recover])))
  | .classMember => alt [sym ";", .use .staticBlock,
      seq [.use .methodDefinition, opt (sym ";")],
      seq [.use .abstractMethodSignature, .use .memberEnd],
      seq [.use .indexSignature, .use .memberEnd],
      seq [.use .methodSignature, .use .memberEnd],
      seq [.use .fieldDefinition, .use .memberEnd]]
  | .memberEnd => alt [sym ",", .use .semicolon]
  | .staticBlock => node "class_static_block" (seq [kw "static", field "body" (.use .block)])
  | .methodDefinition => node "method_definition" (seq [memberModifiers [], methodMarks,
      field "name" (.use .propertyName), opt (sym "?"), .use .callSignature,
      field "body" (.use .block)])
  | .abstractMethodSignature => node "abstract_method_signature" (seq [
      opt accessibility, many (alt [modifier "static", modifier "override"]), modifier "abstract",
      many (alt [modifier "override", accessibility]), methodMarks,
      field "name" (.use .propertyName), opt (sym "?"), .use .callSignature])
  | .methodSignature => node "method_signature" (seq [memberModifiers [], methodMarks,
      field "name" (.use .propertyName), opt (sym "?"), .use .callSignature])
  | .fieldDefinition => node "public_field_definition" (seq [memberModifiers ["abstract"],
      field "name" (.use .propertyName), opt (alt [sym "?", sym "!"]),
      opt (field "type" (.use .typeMark)),
      opt (seq [op "=" ['=', '>'], field "value" (.use .assign)])])
  | .indexSignature => node "index_signature" (seq [memberModifiers [],
      opt (seq [alt [sym "+", sym "-"], kw "readonly"]), opt (kw "readonly"), sym "[", alt [
        seq [field "name" (ident "identifier"), sym ":", field "index_type" (.use .typeExpr)],
        node "mapped_type_clause" (seq [field "name" (ident "type_identifier"), kw "in",
          .use .typeExpr, opt (seq [kw "as", .use .typeExpr])])],
      sym "]", opt (seq [opt (alt [sym "+", sym "-"]), sym "?"]),
      opt (field "type" (.use .typeMark))])
  | .lexicalDeclaration => node "lexical_declaration" (seq [
      field "kind" (alt [kw "let", kw "const"]), absent (kw "enum"),
      sepBy1 (sym ",") (.use .declarator), .use .semicolon])
  | .variableDeclaration => node "variable_declaration" (seq [kw "var",
      sepBy1 (sym ",") (.use .declarator), .use .semicolon])
  | .declarator => node "variable_declarator" (seq [
      field "name" (alt [.use .objectPattern, .use .arrayPattern, ident "identifier"]),
      opt (sym "!"), opt (field "type" (.use .typeMark)),
      opt (seq [op "=" ['=', '>'], field "value" (.use .assign)])])
  | .enumDeclaration => node "enum_declaration" (seq [opt (kw "const"), kw "enum",
      field "name" (ident "identifier"), field "body" (node "enum_body" (seq [openBrace,
        holes (alt [node "enum_assignment" (seq [field "name" (.use .propertyName),
            op "=" ['=', '>'], field "value" (.use .assign)]),
          field "name" (.use .propertyName)]), sym "\x7d"]))])
  | .interfaceDeclaration => node "interface_declaration" (seq [kw "interface", typeName,
      opt (field "type_parameters" (.use .typeParameters)),
      opt (node "extends_type_clause" (seq [kw "extends", sepBy1 (sym ",") (.use .typeExpr)])),
      field "body" (.use .objectType)])
  | .typeAlias => node "type_alias_declaration" (seq [kw "type", typeName,
      opt (field "type_parameters" (.use .typeParameters)), op "=" ['=', '>'],
      field "value" (.use .typeExpr), .use .semicolon])
  | .ambientDeclaration => node "ambient_declaration" (seq [kw "declare", .check sameLine, alt [
      .use .declaration,
      seq [kw "global", .use .block],
      seq [kw "module", sym ".", anyName "property_identifier", sym ":", .use .typeExpr,
        .use .semicolon]]])
  | .moduleDeclaration => node "module" (seq [kw "module", .check sameLine,
      field "name" (alt [.use .stringLiteral, dotted "nested_identifier" "identifier"]),
      alt [field "body" (.use .block), .use .semicolon]])
  | .namespaceDeclaration => node "expression_statement" (node "internal_module" (seq [
      kw "namespace", .check sameLine,
      field "name" (alt [.use .stringLiteral, dotted "nested_identifier" "identifier"]),
      field "body" (.use .block)]))
  | .ifStatement => node "if_statement" (seq [kw "if", field "condition" (.use .parenthesized),
      field "consequence" (.use .statement),
      opt (field "alternative" (node "else_clause" (seq [kw "else", .use .statement])))])
  | .switchStatement => node "switch_statement" (seq [kw "switch",
      field "value" (.use .parenthesized), field "body" (node "switch_body" (braced (many (alt [
        node "switch_case" (seq [kw "case", field "value" (.use .expression), sym ":",
          many (field "body" (.use .statement))]),
        node "switch_default" (seq [kw "default", sym ":",
          many (field "body" (.use .statement))]),
        recover]))))])
  | .forInStatement => node "for_in_statement" (seq [kw "for", opt (kw "await"), sym "(", alt [
        seq [field "kind" (alt [kw "let", kw "const", kw "var"]),
          field "left" (alt [.use .objectPattern, .use .arrayPattern, ident "identifier"]),
          opt (seq [op "=" ['=', '>'], field "value" (.use .shift)])],
        field "left" (.use .access)],
      field "operator" (alt [kw "in", kw "of"]), field "right" (.use .expression), sym ")",
      field "body" (.use .statement)])
  | .forStatement => node "for_statement" (seq [kw "for", sym "(",
      field "initializer" (alt [.use .lexicalDeclaration, .use .variableDeclaration,
        seq [.use .expression, sym ";"], .use .emptyStatement]),
      field "condition" (alt [seq [.use .expression, sym ";"], .use .emptyStatement]),
      opt (field "increment" (.use .expression)), sym ")", field "body" (.use .statement)])
  | .whileStatement => node "while_statement" (seq [kw "while",
      field "condition" (.use .parenthesized), field "body" (.use .statement)])
  | .doStatement => node "do_statement" (seq [kw "do", field "body" (.use .statement), kw "while",
      field "condition" (.use .parenthesized), opt (.use .semicolon)])
  | .tryStatement => node "try_statement" (seq [kw "try", field "body" (.use .block),
      opt (field "handler" (node "catch_clause" (seq [kw "catch",
        opt (seq [sym "(", field "parameter" (.use .pattern), opt (.use .typeMark), sym ")"]),
        field "body" (.use .block)]))),
      opt (field "finalizer" (node "finally_clause" (seq [kw "finally",
        field "body" (.use .block)])))])
  | .withStatement => node "with_statement" (seq [kw "with", field "object" (.use .parenthesized),
      field "body" (.use .statement)])
  | .breakStatement => node "break_statement" (seq [kw "break",
      alt [.use .semicolon, seq [field "label" (ident "statement_identifier"), .use .semicolon]]])
  | .continueStatement => node "continue_statement" (seq [kw "continue",
      alt [.use .semicolon, seq [field "label" (ident "statement_identifier"), .use .semicolon]]])
  | .debuggerStatement => node "debugger_statement" (seq [kw "debugger", .use .semicolon])
  | .returnStatement => node "return_statement" (seq [kw "return",
      alt [.use .semicolon, seq [.use .expression, .use .semicolon]]])
  | .throwStatement => node "throw_statement" (seq [kw "throw", .use .expression, .use .semicolon])
  | .emptyStatement => node "empty_statement" (sym ";")
  | .labeledStatement => node "labeled_statement" (seq [
      field "label" (ident "statement_identifier"), sym ":", field "body" (.use .statement)])
  | .expressionStatement => node "expression_statement" (seq [.use .expression, .use .semicolon])
  | _ => absent done

def patternRule : Symbol → Rule Symbol
  | .pattern => alt [.use .objectPattern, .use .arrayPattern,
      node "rest_pattern" (seq [sym "...", .use .pattern]), ident "identifier"]
  | .patternOrDefault => chain (.use .pattern) (wrap "assignment_pattern" "left"
      (seq [op "=" ['=', '>'], field "right" (.use .assign)]))
  | .objectPattern => node "object_pattern" (seq [openBrace, holes (alt [
      node "rest_pattern" (seq [sym "...", .use .pattern]),
      node "pair_pattern" (seq [field "key" (.use .propertyName), sym ":",
        field "value" (.use .patternOrDefault)]),
      node "object_assignment_pattern" (seq [
        field "left" (ident "shorthand_property_identifier_pattern"), op "=" ['=', '>'],
        field "right" (.use .assign)]),
      ident "shorthand_property_identifier_pattern"]), sym "\x7d"])
  | .arrayPattern => node "array_pattern" (seq [sym "[", holes (.use .patternOrDefault), sym "]"])
  | .propertyName => alt [anyName "property_identifier",
      .token "private_property_identifier" true privateName, .use .stringLiteral,
      .token "number" true number,
      node "computed_property_name" (seq [sym "[", full (.use .expression), sym "]"])]
  | .parameters => node "formal_parameters" (full (parens (opt (seq [.use .parameter,
      many (seq [sym ",", .use .parameter]), opt (sym ",")]))))
  | .parameter => alt [
      node "optional_parameter" (seq [many (field "decorator" (.use .decorator)),
        memberModifiers [], field "pattern" (alt [.use .pattern, kw "this"]), sym "?",
        opt (field "type" (.use .typeMark)),
        opt (seq [op "=" ['=', '>'], field "value" (.use .assign)])]),
      node "required_parameter" (seq [many (field "decorator" (.use .decorator)),
        memberModifiers [], field "pattern" (alt [.use .pattern, .token "this" true (word "this")]),
        opt (field "type" (.use .typeMark)),
        opt (seq [op "=" ['=', '>'], field "value" (.use .assign)])])]
  | .callSignature => seq [opt (field "type_parameters" (.use .typeParameters)),
      field "parameters" (.use .parameters), opt (field "return_type" (.use .returnType))]
  | _ => absent done

def expressionRule (markup : Bool) : Symbol → Rule Symbol
  | .expression => chain (.use .assign) (wrap "sequence_expression" ""
      (seq [sym ",", .use .assign, many (seq [sym ",", .use .assign])]))
  | .assign => alt [.use .arrow, .use .yieldExpression,
      chain (.use .conditional) (alt [
        wrap "assignment_expression" "left" (seq [op "=" ['=', '>'],
          field "right" (.use .assign)]),
        wrap "augmented_assignment_expression" "left" (seq [field "operator" (alt updateOperators),
          field "right" (.use .assign)])])]
  | .arrow => node "arrow_function" (alt [
      seq [kw "async", .check sameLine, field "parameter" (ident "identifier"), sym "=>",
        field "body" (.use .arrowBody)],
      seq [field "parameter" (ident "identifier"), sym "=>", field "body" (.use .arrowBody)],
      seq [opt (seq [kw "async", .check sameLine]),
        opt (field "type_parameters" (.use .typeParameters)), field "parameters" (.use .parameters),
        opt (seq [.check (fun c _ _ => !c.bareArrows), field "return_type" (.use .returnType)]),
        sym "=>", field "body" (.use .arrowBody)]])
  | .arrowBody => alt [.use .block, .use .assign]
  | .yieldExpression => node "yield_expression" (seq [kw "yield", alt [
      seq [sym "*", .use .assign],
      seq [.check sameLine, .use .assign],
      done]])
  | .conditional => chain (.use .coalesce) (wrap "ternary_expression" "condition" (alt [
      seq [op "?" ['.', '?'], field "consequence" (full (.use .assign)), sym ":",
        field "alternative" (.use .assign)],
      seq [op "?" ['?'], field "consequence" (full (.use .assign)), sym ":",
        field "alternative" (.use .assign)],
      seq [op "?" ['?'], field "consequence" (bare (.use .assign)), sym ":",
        field "alternative" (.use .assign)]]))
  | .coalesce => binary .logicalOr [op "??" ['=']]
  | .logicalOr => binary .logicalAnd [op "||" ['=']]
  | .logicalAnd => binary .bitOr [op "&&" ['=']]
  | .bitOr => binary .bitXor [op "|" ['|', '=']]
  | .bitXor => binary .bitAnd [op "^" ['=']]
  | .bitAnd => binary .equality [op "&" ['&', '=']]
  | .equality => binary .relational [sym "===", sym "!==", op "==" ['='], op "!=" ['=']]
  | .relational => chain (.use .shift) (alt [
      wrap "as_expression" "" (seq [.check sameLine, kw "as", alt [kw "const", .use .typeExpr]]),
      wrap "satisfies_expression" "" (seq [.check sameLine, kw "satisfies", .use .typeExpr]),
      wrap "binary_expression" "left" (seq [field "operator" (alt [sym "<=", sym ">=",
          op "<" ['<', '='], op ">" ['>', '='], kw "instanceof", kw "in"]),
        field "right" (.use .shift)])])
  | .shift => binary .additive [op ">>>" ['='], op ">>" ['>', '='], op "<<" ['=']]
  | .additive => binary .multiplicative [op "+" ['+', '='], op "-" ['-', '=']]
  | .multiplicative => binary .power [op "*" ['*', '='], op "/" ['=', '/', '*'], op "%" ['=']]
  | .power => chain (.use .unary) (wrap "binary_expression" "left"
      (seq [field "operator" (op "**" ['=']), field "right" (.use .power)]))
  | .unary => alt [
      node "update_expression" (seq [field "operator" (alt [sym "++", sym "--"]),
        field "argument" (.use .unary)]),
      node "unary_expression" (seq [field "operator" (alt [sym "!", sym "~", sym "-", sym "+",
          kw "typeof", kw "void", kw "delete"]), field "argument" (.use .unary)]),
      node "await_expression" (seq [kw "await", .use .unary]),
      if markup then absent done
      else node "type_assertion" (seq [.use .typeArguments, .use .unary]),
      .use .increment]
  | .increment => chain (.use .access) (wrap "update_expression" "argument"
      (seq [.check sameLine, field "operator" (alt [sym "++", sym "--"])]))
  | .access => chain (alt [.use .newExpression, .use .primary]) (alt [
      wrap "member_expression" "object" (seq [
        alt [sym ".", .token "optional_chain" true fun s i =>
          if (look s (i + 2)).isDigit then none else literal "?." s i],
        field "property" (alt [anyName "property_identifier",
          .token "private_property_identifier" true privateName])]),
      wrap "subscript_expression" "object" (seq [opt (.token "optional_chain" true (literal "?.")),
        sym "[", field "index" (full (.use .expression)), sym "]"]),
      wrap "call_expression" "function" (seq [opt (.token "optional_chain" true (literal "?.")),
        opt (field "type_arguments" (.use .typeArguments)), field "arguments" (.use .arguments)]),
      wrap "call_expression" "function" (seq [opt (field "type_arguments" (.use .typeArguments)),
        field "arguments" (.use .templateString)]),
      wrap "non_null_expression" "" (seq [.check sameLine, op "!" ['=']]),
      wrap "instantiation_expression" "" (seq [field "type_arguments" (.use .typeArguments),
        absent (alt [ident "identifier", .token "number" true number, .use .stringLiteral,
          sym "(", sym "[", sym "\x7b"])])])
  | .newExpression => node "new_expression" (seq [kw "new",
      field "constructor" (alt [.use .newExpression, chain (.use .primary) (alt [
        wrap "member_expression" "object" (seq [sym ".", field "property"
          (alt [anyName "property_identifier",
            .token "private_property_identifier" true privateName])]),
        wrap "subscript_expression" "object" (seq [sym "[", field "index"
          (full (.use .expression)), sym "]"])])]),
      opt (field "type_arguments" (.use .typeArguments)),
      opt (field "arguments" (.use .arguments))])
  | .arguments => node "arguments" (full (parens (holes (alt [
      node "spread_element" (seq [sym "...", .use .assign]), .use .assign]))))
  | .primary => alt [.use .functionExpression, .use .classExpression, .use .parenthesized,
      .use .array, .use .object, .use .templateString, .use .stringLiteral,
      .token "number" true number, .use .regex,
      if markup then .use .markup else absent done,
      node "meta_property" (seq [kw "new", sym ".", kw "target"]),
      node "meta_property" (seq [kw "import", sym ".", kw "meta"]),
      .token "import" true (word "import"), .token "this" true (word "this"),
      .token "super" true (word "super"), .token "null" true (word "null"),
      .token "true" true (word "true"), .token "false" true (word "false"),
      .token "undefined" true (word "undefined"),
      .token "private_property_identifier" true privateName, ident "identifier"]
  | .parenthesized => node "parenthesized_expression" (full (parens (seq [.use .expression,
      opt (field "type" (.use .typeMark))])))
  | .functionExpression => alt [
      node "generator_function" (seq [opt (seq [kw "async", .check sameLine]), kw "function",
        sym "*", opt (field "name" (ident "identifier")), .use .callSignature,
        field "body" (.use .block)]),
      node "function_expression" (seq [opt (seq [kw "async", .check sameLine]), kw "function",
        opt (field "name" (ident "identifier")), .use .callSignature, field "body" (.use .block)])]
  | .classExpression => node "class" (seq [many (field "decorator" (.use .decorator)), kw "class",
      opt (seq [absent (alt [kw "extends", kw "implements"]), typeName]), .use .classTail])
  | .array => node "array" (full (seq [sym "[", holes (alt [
      node "spread_element" (seq [sym "...", .use .assign]), .use .assign]), sym "]"]))
  | .object => node "object" (full (seq [openBrace, holes (.use .objectMember), sym "\x7d"]))
  | .objectMember => alt [
      node "spread_element" (seq [sym "...", .use .assign]),
      .use .methodDefinition,
      node "pair" (seq [field "key" (.use .propertyName), sym ":", field "value" (.use .assign)]),
      node "object_assignment_pattern" (seq [
        field "left" (ident "shorthand_property_identifier_pattern"), op "=" ['=', '>'],
        field "right" (.use .assign)]),
      anyName "shorthand_property_identifier"]
  | .stringLiteral => node "string" (alt [quoted '"', quoted '\x27'])
  | .templateString => node "template_string" (seq [sym "\x60", many (alt [
      .raw "string_fragment" true templateFragment, .raw "escape_sequence" true escape,
      node "template_substitution" (seq [.raw "$\x7b" false (literal "$\x7b"),
        full (.use .expression), sym "\x7d"])]),
      .raw "\x60" false (literal "\x60")])
  | .regex => node "regex" (seq [sym "/", field "pattern" (.raw "regex_pattern" true regexPattern),
      .raw "/" false (literal "/"),
      opt (field "flags" (.raw "regex_flags" true (some1 Char.isLower)))])
  | .markup => alt [
      node "jsx_self_closing_element" (seq [sym "<", .use .markupTag,
        many (field "attribute" (.use .markupAttribute)), sym "/>"]),
      node "jsx_element" (seq [
        field "open_tag" (node "jsx_opening_element" (seq [sym "<",
          opt (seq [.use .markupTag, many (field "attribute" (.use .markupAttribute))]), sym ">"])),
        many (.use .markupChild),
        field "close_tag" (node "jsx_closing_element" (seq [sym "</", opt (.use .markupTag),
          sym ">"]))])]
  | .markupTag => seq [field "name" (chain (.token "identifier" true markupName)
      (wrap "member_expression" "" (seq [alt [sym ".", sym ":"],
        .token "property_identifier" true markupName]))),
      opt (.use .typeArguments)]
  | .markupChild => alt [.raw "jsx_text" true markupText, .use .markup,
      node "jsx_expression" (seq [openBrace, opt (alt [
        node "spread_element" (seq [sym "...", .use .assign]), .use .expression]), sym "\x7d"])]
  | .markupAttribute => alt [
      node "jsx_attribute" (seq [chain (.token "property_identifier" true markupName)
          (wrap "jsx_namespace_name" "" (seq [sym ":", .token "identifier" true markupName])),
        opt (seq [sym "=", alt [attributeQuoted '"', attributeQuoted '\x27', .use .markup,
          node "jsx_expression" (seq [openBrace, opt (.use .expression), sym "\x7d"])]])]),
      node "jsx_expression" (seq [openBrace, alt [
        node "spread_element" (seq [sym "...", .use .assign]), .use .expression], sym "\x7d"])]
  | _ => absent done

def builtInTypes : List String :=
  ["any", "number", "boolean", "string", "symbol", "void", "unknown", "never", "object", "bigint"]

def typeRule : Symbol → Rule Symbol
  | .typeMark => node "type_annotation" (seq [sym ":", .use .typeExpr])
  | .returnType => alt [
      node "asserts_annotation" (seq [sym ":", node "asserts" (seq [kw "asserts", .check sameLine,
        anyName "identifier", opt (seq [kw "is", .use .typeExpr])])]),
      node "type_predicate_annotation" (seq [sym ":", node "type_predicate" (seq [
        field "name" (anyName "identifier"), .check sameLine, kw "is",
        field "type" (.use .typeExpr)])]),
      .use .typeMark]
  | .typeExpr => full (alt [.use .functionType,
      chain (.use .unionType) (wrap "conditional_type" "left" (seq [.check sameLine, kw "extends",
        field "right" (.use .unionType), sym "?", field "consequence" (.use .typeExpr), sym ":",
        field "alternative" (.use .typeExpr)]))])
  | .functionType => alt [
      node "constructor_type" (seq [opt (kw "abstract"), kw "new",
        opt (field "type_parameters" (.use .typeParameters)), field "parameters" (.use .parameters),
        sym "=>", field "type" (.use .typeExpr)]),
      node "function_type" (seq [opt (field "type_parameters" (.use .typeParameters)),
        field "parameters" (.use .parameters), sym "=>", field "return_type" (alt [
          node "asserts" (seq [kw "asserts", .check sameLine, anyName "identifier",
            opt (seq [kw "is", .use .typeExpr])]),
          node "type_predicate" (seq [field "name" (anyName "identifier"), .check sameLine, kw "is",
            field "type" (.use .typeExpr)]),
          .use .typeExpr])])]
  | .unionType => alt [
      node "union_type" (seq [op "|" ['|'], .use .intersectionType,
        many (seq [op "|" ['|'], .use .intersectionType])]),
      chain (.use .intersectionType) (wrap "union_type" "" (seq [op "|" ['|'],
        alt [.use .intersectionType, .use .functionType]]))]
  | .intersectionType => alt [
      node "intersection_type" (seq [op "&" ['&'], .use .prefixedType,
        many (seq [op "&" ['&'], .use .prefixedType])]),
      chain (.use .prefixedType) (wrap "intersection_type" "" (seq [op "&" ['&'],
        .use .prefixedType]))]
  | .prefixedType => alt [
      node "index_type_query" (seq [kw "keyof", .check sameLine, .use .prefixedType]),
      node "readonly_type" (seq [kw "readonly", .check sameLine, .use .prefixedType]),
      node "infer_type" (seq [kw "infer", .check sameLine, ident "type_identifier",
        opt (seq [kw "extends", .use .unionType, absent (sym "?")])]),
      node "predefined_type" (seq [kw "unique", kw "symbol"]),
      .use .postfixType]
  | .postfixType => chain (.use .primaryType) (alt [
      wrap "array_type" "" (seq [.check sameLine, sym "[", sym "]"]),
      wrap "lookup_type" "" (seq [.check sameLine, sym "[", .use .typeExpr, sym "]"])])
  | .primaryType => alt [
      node "parenthesized_type" (parens (.use .typeExpr)),
      .use .objectType,
      node "tuple_type" (seq [sym "[", holes (alt [
        seq [opt (sym "..."), anyName "identifier", opt (sym "?"), .use .typeMark],
        node "rest_type" (seq [sym "...", .use .typeExpr]),
        seq [.use .typeExpr, opt (sym "?")]]), sym "]"]),
      node "type_query" (seq [kw "typeof", chain (alt [.token "this" true (word "this"),
          node "call_expression" (seq [kw "import", .use .arguments]), ident "identifier"])
        (alt [wrap "member_expression" "" (seq [sym ".", alt [anyName "property_identifier",
            .token "private_property_identifier" true privateName]]),
          wrap "instantiation_expression" "" (seq [.check sameLine, .use .typeArguments])])]),
      node "literal_type" (alt [.use .stringLiteral, .token "number" true number,
        node "unary_expression" (seq [alt [sym "-", sym "+"], .token "number" true number]),
        .token "true" true (word "true"), .token "false" true (word "false"),
        .token "null" true (word "null"), .token "undefined" true (word "undefined")]),
      node "template_literal_type" (seq [sym "\x60", many (alt [
        .raw "string_fragment" true templateFragment, .raw "escape_sequence" true escape,
        node "template_type" (seq [.raw "$\x7b" false (literal "$\x7b"), .use .typeExpr,
          sym "\x7d"])]), .raw "\x60" false (literal "\x60")]),
      .token "this_type" true (word "this"),
      .token "existential_type" true (literal "*"),
      node "predefined_type" (seq [alt (builtInTypes.map kw), absent (sym ".")]),
      chain (alt [node "call_expression" (seq [kw "import", .use .arguments]),
          ident "type_identifier"])
        (alt [wrap "nested_type_identifier" "" (seq [sym ".", anyName "type_identifier"]),
          wrap "generic_type" "name" (seq [.check sameLine,
            field "type_arguments" (.use .typeArguments)])])]
  | .objectType => node "object_type" (seq [alt [sym "\x7b|", openBrace],
      opt (alt [sym ",", sym ";"]),
      many (seq [.use .typeMember, alt [sym ",", .use .semicolon]]), opt (.use .typeMember),
      alt [sym "|\x7d", .use .close]])
  | .typeMember => alt [
      .use .exportStatement,
      .use .indexSignature,
      node "construct_signature" (seq [opt (kw "abstract"), kw "new",
        opt (field "type_parameters" (.use .typeParameters)), field "parameters" (.use .parameters),
        opt (field "type" (.use .typeMark))]),
      node "call_signature" (.use .callSignature),
      .use .methodSignature,
      node "property_signature" (seq [memberModifiers [], field "name" (.use .propertyName),
        opt (sym "?"), opt (field "type" (.use .typeMark))])]
  | .typeParameters => node "type_parameters" (seq [sym "<", sepBy1 (sym ",")
      (node "type_parameter" (seq [many (alt [modifierInAngles "const", modifierInAngles "in",
          modifierInAngles "out"]),
        field "name" (ident "type_identifier"),
        opt (field "constraint" (node "constraint" (seq [alt [kw "extends", sym ":"],
          .use .typeExpr]))),
        opt (field "value" (node "default_type" (seq [sym "=", .use .typeExpr])))])),
      opt (sym ","), sym ">"])
  | .typeArguments => node "type_arguments" (seq [op "<" ['<', '='], sepBy1 (sym ",")
      (.use .typeExpr), opt (sym ","), sym ">"])
  | _ => absent done
where
  /-- A word before the name of a type parameter. -/
  modifierInAngles (text : String) : Rule Symbol :=
    seq [kw text, ahead (anyName "")]

def rule (markup : Bool) (symbol : Symbol) : Rule Symbol :=
  match symbol with
  | .pattern | .patternOrDefault | .objectPattern | .arrayPattern | .propertyName | .parameters
  | .parameter | .callSignature => patternRule symbol
  | .expression | .assign | .arrow | .arrowBody | .yieldExpression | .conditional | .coalesce
  | .logicalOr | .logicalAnd | .bitOr | .bitXor | .bitAnd | .equality | .relational | .shift
  | .additive | .multiplicative | .power | .unary | .increment | .access | .newExpression | .primary
  | .parenthesized | .functionExpression | .classExpression | .array | .object | .objectMember
  | .arguments | .stringLiteral | .templateString | .regex | .markup | .markupChild
  | .markupAttribute | .markupTag => expressionRule markup symbol
  | .typeExpr | .unionType | .intersectionType | .prefixedType | .postfixType | .primaryType
  | .objectType | .typeMember | .typeParameters | .typeArguments | .typeMark | .returnType
  | .functionType => typeRule symbol
  | _ => statementRule symbol

/-- The grammar, with markup in expressions or with type assertions in angle brackets. -/
def grammar (markup : Bool) : Grammar Symbol where
  rule := rule markup
  skip := skip

end ProjectOutline.Source.Script
