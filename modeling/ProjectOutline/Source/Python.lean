import ProjectOutline.Source.PythonTokens

/-!
The grammar of Python. Definitions, decorators and blocks carry the node kinds that the outline
rules name; expressions are read as far as their extent needs. A line that cannot be read leaves an
error node.
-/

namespace ProjectOutline.Source.Python

open Peg (Source Context Rule Piece Grammar)
open Peg.Rule

inductive Symbol where
  | module | statement | simpleStatements | simple | block
  | ifStatement | forStatement | whileStatement | tryStatement | withStatement | matchStatement
  | functionDefinition | classDefinition | decoratedDefinition | decorator
  | expressionStatement | assignmentTail | printStatement
  | parameters | parameter | typeParameters | lambdaParameters
  | expression | named | disjunction | conjunction | negation | comparison | bitOr | bitXor | bitAnd
  | shift | additive | multiplicative | unary | power | access | atom | string | arguments
  | argument | parenthesized | list | pair | braces | comprehension | subscript | starOrNamed
  | listItems | target | lambda | yieldExpression
deriving DecidableEq, Repr, Inhabited

def sym (text : String) : Rule Symbol := .token text false (literal text)

/-- A token of fixed punctuation that some characters may not follow. -/
def op (text : String) (followers : List Char) : Rule Symbol :=
  .token text false (literalNot text followers)

def kw (text : String) : Rule Symbol := .token text false (word text)

def ident : Rule Symbol := .token "identifier" true identifier

/-- A rule where line ends do not count. -/
def joined (r : Rule Symbol) : Rule Symbol :=
  .within (fun c _ _ => { c with joined := true }) r

def inBrackets (opening closing : String) (r : Rule Symbol) : Rule Symbol :=
  seq [sym opening, joined (seq [r, sym closing])]

/-- Items separated by commas, with a comma at the end if one likes. -/
def commaSep (r : Rule Symbol) : Rule Symbol :=
  opt (seq [r, many (seq [sym ",", r]), opt (sym ",")])

def lineBreak : Rule Symbol := .pass newline

/-- A line that belongs to no statement. -/
def strayLine : Rule Symbol :=
  seq [.node "ERROR" (.token "" false fun s i =>
    if i < s.size && look s i != '\n' then some (lineEnd s i) else none), lineBreak]

def body : Rule Symbol := seq [sym ":", field "body" (.use .block)]

def binary (kind : String) (operand : Symbol) (operators : List (Rule Symbol)) : Rule Symbol :=
  chain (.use operand) (wrap kind "left"
    (seq [field "operator" (alt operators), field "right" (.use operand)]))

/-- Expressions with commas between, as a tuple if there is more than one. -/
def expressionList (kind : String) : Rule Symbol :=
  chain (.use .starOrNamed) (wrap kind ""
    (seq [sym ",", opt (seq [.use .starOrNamed, many (seq [sym ",", .use .starOrNamed])]),
      opt (sym ",")]))

/-- An expression with a name given to it by `as`. -/
def aliased (r : Rule Symbol) : Rule Symbol :=
  chain r (wrap "as_pattern" "" (seq [kw "as", field "alias"
    (node "as_pattern_target" (.use .access))]))

def updateOperators : List (Rule Symbol) :=
  ["+=", "-=", "*=", "/=", "@=", "//=", "%=", "**=", ">>=", "<<=", "&=", "^=", "|="].map sym

def openings : List Opening :=
  [true, false].flatMap fun triple => ['"', '\x27'].flatMap fun quote =>
    [false, true].map fun formatted => ⟨quote, triple, formatted⟩

def rule : Symbol → Rule Symbol
  | .module => node "module" (seq [.pass blankLines, many (alt [.use .statement, strayLine]),
      .pass blankLines])
  | .statement => alt [.use .ifStatement, .use .forStatement, .use .whileStatement,
      .use .tryStatement, .use .withStatement, .use .functionDefinition, .use .classDefinition,
      .use .decoratedDefinition, .use .matchStatement, .use .simpleStatements]
  | .simpleStatements => seq [.use .simple, many (seq [sym ";", .use .simple]), opt (sym ";"),
      lineBreak]
  | .block => alt [
      seq [lineBreak, .check deeper,
        .within (fun c s i => { c with indent := column s i }) (node "block"
          (many1 (seq [.check inBlock, alt [.use .statement, strayLine]])))],
      node "block" (.use .simpleStatements),
      seq [lineBreak, node "block" done]]
  | .ifStatement => node "if_statement" (seq [kw "if", field "condition" (.use .named),
      sym ":", field "consequence" (.use .block),
      many (seq [.check inBlock, field "alternative" (node "elif_clause" (seq [kw "elif",
        field "condition" (.use .named), sym ":", field "consequence" (.use .block)]))]),
      opt (seq [.check inBlock, field "alternative" (node "else_clause" (seq [kw "else", body]))])])
  | .forStatement => node "for_statement" (seq [opt (kw "async"), kw "for",
      field "left" (.use .target), kw "in", field "right" (expressionList "expression_list"), body,
      opt (seq [.check inBlock, field "alternative" (node "else_clause" (seq [kw "else", body]))])])
  | .whileStatement => node "while_statement" (seq [kw "while", field "condition" (.use .named),
      body, opt (seq [.check inBlock,
        field "alternative" (node "else_clause" (seq [kw "else", body]))])])
  | .tryStatement => node "try_statement" (seq [kw "try", body,
      many (seq [.check inBlock, alt [
        node "except_clause" (seq [kw "except", absent (sym "*"),
          opt (seq [aliased (.use .expression), opt (seq [sym ",", .use .expression])]),
          sym ":", .use .block]),
        node "except_group_clause" (seq [kw "except", sym "*", aliased (.use .expression),
          sym ":", .use .block])]]),
      opt (seq [.check inBlock, node "else_clause" (seq [kw "else", body])]),
      opt (seq [.check inBlock, node "finally_clause" (seq [kw "finally", sym ":", .use .block])])])
  | .withStatement => node "with_statement" (seq [opt (kw "async"), kw "with", alt [
      seq [node "with_clause" (inBrackets "(" ")" (seq [
        node "with_item" (aliased (.use .named)),
        many (seq [sym ",", node "with_item" (aliased (.use .named))]), opt (sym ",")])), body],
      seq [node "with_clause" (seq [node "with_item" (aliased (.use .named)),
        many (seq [sym ",", node "with_item" (aliased (.use .named))])]), body]]])
  | .matchStatement => node "match_statement" (seq [kw "match",
      field "subject" (expressionList "tuple"), sym ":", lineBreak, .check deeper,
      .within (fun c s i => { c with indent := column s i }) (field "body" (node "block"
        (many1 (seq [.check inBlock, node "case_clause" (seq [kw "case",
          aliased (.use .starOrNamed),
          many (seq [sym ",", aliased (.use .starOrNamed)]), opt (sym ","),
          opt (field "guard" (node "if_clause" (seq [kw "if", .use .named]))),
          sym ":", field "consequence" (.use .block)])]))))])
  | .functionDefinition => node "function_definition" (seq [opt (kw "async"), kw "def",
      field "name" ident, opt (field "type_parameters" (.use .typeParameters)),
      field "parameters" (.use .parameters),
      opt (seq [sym "->", field "return_type" (node "type" (.use .expression))]), body])
  | .classDefinition => node "class_definition" (seq [kw "class", field "name" ident,
      opt (field "type_parameters" (.use .typeParameters)),
      opt (field "superclasses" (.use .arguments)), body])
  | .decoratedDefinition => node "decorated_definition" (seq [many1 (.use .decorator),
      field "definition" (alt [.use .classDefinition, .use .functionDefinition])])
  | .decorator => node "decorator" (seq [sym "@", .use .named, lineBreak])
  | .simple => alt [
      node "future_import_statement" (seq [kw "from", kw "__future__", kw "import",
        importedNames]),
      node "import_from_statement" (seq [kw "from", field "module_name" (alt [
          node "relative_import" (seq [many1 (sym "."), opt dottedName]), dottedName]),
        kw "import", alt [.token "wildcard_import" true (literal "*"), importedNames]]),
      node "import_statement" (seq [kw "import", importedName, many (seq [sym ",", importedName])]),
      node "assert_statement" (seq [kw "assert", .use .expression,
        opt (seq [sym ",", .use .expression])]),
      node "return_statement" (seq [kw "return", opt (expressionList "expression_list")]),
      node "delete_statement" (seq [kw "del", expressionList "expression_list"]),
      node "raise_statement" (seq [kw "raise", opt (expressionList "expression_list"),
        opt (seq [kw "from", field "cause" (.use .expression)])]),
      node "pass_statement" (kw "pass"),
      node "break_statement" (kw "break"),
      node "continue_statement" (kw "continue"),
      node "global_statement" (seq [kw "global", ident, many (seq [sym ",", ident])]),
      node "nonlocal_statement" (seq [kw "nonlocal", ident, many (seq [sym ",", ident])]),
      node "type_alias_statement" (seq [kw "type", node "type" (.use .access), op "=" ['='],
        node "type" (.use .expression)]),
      seq [.use .expressionStatement, .check endsHere],
      seq [.use .printStatement, .check endsHere]]
  | .printStatement => alt [
      node "print_statement" (seq [kw "print", opt (node "chevron" (seq [sym ">>",
          .use .expression, opt (sym ",")])),
        opt (seq [.use .expression, many (seq [sym ",", .use .expression]), opt (sym ",")])]),
      node "exec_statement" (seq [kw "exec", .use .expression,
        opt (seq [kw "in", .use .expression, many (seq [sym ",", .use .expression])])])]
  | .expressionStatement => node "expression_statement" (alt [.use .yieldExpression,
      chain (expressionList "pattern_list") (alt [
        wrap "assignment" "left" (seq [sym ":", field "type" (node "type" (.use .expression)),
          opt (seq [op "=" ['='], field "right" (.use .assignmentTail)])]),
        wrap "assignment" "left" (seq [op "=" ['='], field "right" (.use .assignmentTail)]),
        wrap "augmented_assignment" "left" (seq [field "operator" (alt updateOperators),
          field "right" (.use .assignmentTail)])])])
  | .assignmentTail => alt [.use .yieldExpression,
      chain (expressionList "expression_list") (alt [
        wrap "assignment" "left" (seq [op "=" ['='], field "right" (.use .assignmentTail)]),
        wrap "augmented_assignment" "left" (seq [field "operator" (alt updateOperators),
          field "right" (.use .assignmentTail)])])]
  | .yieldExpression => node "yield" (seq [kw "yield", alt [
      seq [kw "from", .use .expression], opt (expressionList "expression_list")]])
  | .target => chain (alt [node "list_splat_pattern" (seq [sym "*", .use .access]), .use .access])
      (wrap "pattern_list" "" (seq [sym ",", opt (alt [
        node "list_splat_pattern" (seq [sym "*", .use .access]), .use .access])]))
  | .typeParameters => node "type_parameter" (inBrackets "[" "]" (commaSep (node "type"
      (seq [opt (alt [sym "**", sym "*"]), .use .expression,
        opt (seq [sym ":", .use .expression]), opt (seq [op "=" ['='], .use .expression])]))))
  | .parameters => node "parameters" (inBrackets "(" ")" (commaSep (.use .parameter)))
  | .parameter => alt [
      node "typed_default_parameter" (seq [field "name" ident, sym ":",
        field "type" (node "type" (.use .expression)), op "=" ['='],
        field "value" (.use .expression)]),
      node "typed_parameter" (seq [alt [ident, node "list_splat_pattern" (seq [sym "*", ident]),
          node "dictionary_splat_pattern" (seq [sym "**", ident])],
        sym ":", field "type" (node "type" (.use .starOrNamed))]),
      node "default_parameter" (seq [field "name" (alt [ident,
          node "tuple_pattern" (inBrackets "(" ")" (commaSep (.use .access)))]), op "=" ['='],
        field "value" (.use .expression)]),
      node "dictionary_splat_pattern" (seq [sym "**", ident]),
      node "list_splat_pattern" (seq [sym "*", ident]),
      node "keyword_separator" (sym "*"), node "positional_separator" (sym "/"),
      node "tuple_pattern" (inBrackets "(" ")" (commaSep (.use .access))), ident]
  | .lambdaParameters => node "lambda_parameters" (seq [lambdaParameter,
      many (seq [sym ",", lambdaParameter]), opt (sym ",")])
  | .lambda => node "lambda" (seq [kw "lambda", opt (field "parameters" (.use .lambdaParameters)),
      sym ":", field "body" (.use .expression)])
  | .expression => alt [.use .lambda,
      chain (.use .disjunction) (wrap "conditional_expression" "" (seq [kw "if",
        .use .disjunction, kw "else", .use .expression]))]
  | .named => chain (.use .expression) (wrap "named_expression" "name" (seq [sym ":=",
      field "value" (.use .expression)]))
  | .starOrNamed => alt [node "list_splat" (seq [sym "*", .use .bitOr]), .use .named]
  | .disjunction => binary "boolean_operator" .conjunction [kw "or"]
  | .conjunction => binary "boolean_operator" .negation [kw "and"]
  | .negation => alt [node "not_operator" (seq [kw "not", field "argument" (.use .negation)]),
      .use .comparison]
  | .comparison => chain (.use .bitOr) (wrap "comparison_operator" "" (many1 (seq [
      alt [sym "<=", sym ">=", sym "<>", sym "==", sym "!=", op "<" ['<'], op ">" ['>'],
        seq [kw "not", kw "in"], seq [kw "is", kw "not"], kw "is", kw "in"], .use .bitOr])))
  | .bitOr => binary "binary_operator" .bitXor [op "|" ['=']]
  | .bitXor => binary "binary_operator" .bitAnd [op "^" ['=']]
  | .bitAnd => binary "binary_operator" .shift [op "&" ['=']]
  | .shift => binary "binary_operator" .additive [op "<<" ['='], op ">>" ['=']]
  | .additive => binary "binary_operator" .multiplicative [op "+" ['='], op "-" ['=', '>']]
  | .multiplicative => binary "binary_operator" .unary [op "//" ['='], op "*" ['*', '='],
      op "/" ['/', '='], op "%" ['='], op "@" ['=']]
  | .unary => alt [node "unary_operator" (seq [field "operator" (alt [sym "+", sym "-", sym "~"]),
      field "argument" (.use .unary)]), .use .power]
  | .power => chain (alt [node "await" (seq [kw "await", .use .access]), .use .access])
      (wrap "binary_operator" "left" (seq [field "operator" (op "**" ['=']),
        field "right" (.use .unary)]))
  | .access => chain (.use .atom) (alt [
      wrap "attribute" "object" (seq [sym ".", field "attribute"
        (.token "identifier" true name)]),
      wrap "call" "function" (field "arguments" (.use .arguments)),
      wrap "subscript" "value" (inBrackets "[" "]" (seq [.use .subscript,
        many (seq [sym ",", .use .subscript]), opt (sym ",")]))])
  | .subscript => field "subscript" (alt [
      chain (.use .starOrNamed) (wrap "slice" "" sliceTail), node "slice" sliceTail])
  | .arguments => node "argument_list" (inBrackets "(" ")" (commaSep (.use .argument)))
  | .argument => alt [
      node "dictionary_splat" (seq [sym "**", .use .expression]),
      node "list_splat" (seq [sym "*", .use .expression]),
      node "keyword_argument" (seq [field "name" (.token "identifier" true name), op "=" ['='],
        field "value" (.use .expression)]),
      chain (aliased (.use .named)) (wrap "generator_expression" "body" (many1
        (.use .comprehension)))]
  | .comprehension => alt [
      node "for_in_clause" (seq [opt (kw "async"), kw "for", field "left" (.use .target), kw "in",
        field "right" (alt [.use .lambda, .use .disjunction])]),
      node "if_clause" (seq [kw "if", alt [.use .lambda, chain (.use .disjunction)
        (wrap "named_expression" "name" (seq [sym ":=", .use .disjunction]))]])]
  | .listItems => seq [aliased (.use .starOrNamed),
      many (seq [sym ",", aliased (.use .starOrNamed)]), opt (sym ",")]
  | .parenthesized => alt [
      node "tuple" (inBrackets "(" ")" done),
      onto (seq [sym "(", joined (alt [.use .yieldExpression, aliased (.use .starOrNamed)])])
        (joined (alt [
          wrap "parenthesized_expression" "" (sym ")"),
          wrap "generator_expression" "" (seq [many1 (.use .comprehension), sym ")"]),
          wrap "tuple" "" (seq [sym ",", opt (.use .listItems), sym ")"])]))]
  | .list => alt [
      node "list" (inBrackets "[" "]" done),
      onto (seq [sym "[", joined (aliased (.use .starOrNamed))])
        (joined (alt [
          wrap "list" "" (sym "]"),
          wrap "list_comprehension" "" (seq [many1 (.use .comprehension), sym "]"]),
          wrap "list" "" (seq [sym ",", opt (.use .listItems), sym "]"])]))]
  | .pair => alt [
      node "dictionary_splat" (seq [sym "**", .use .bitOr]),
      onto (.use .expression) (wrap "pair" "key" (seq [sym ":",
        field "value" (aliased (.use .expression))]))]
  | .braces => alt [
      node "dictionary" (inBrackets "\x7b" "\x7d" done),
      onto (seq [sym "\x7b", joined (.use .pair)])
        (joined (alt [
          wrap "dictionary" "" (sym "\x7d"),
          wrap "dictionary_comprehension" "" (seq [many1 (.use .comprehension), sym "\x7d"]),
          wrap "dictionary" "" (seq [sym ",", commaSep (.use .pair), sym "\x7d"])])),
      onto (seq [sym "\x7b", joined (.use .starOrNamed)])
        (joined (alt [
          wrap "set" "" (sym "\x7d"),
          wrap "set_comprehension" "" (seq [many1 (.use .comprehension), sym "\x7d"]),
          wrap "set" "" (seq [sym ",", opt (.use .listItems), sym "\x7d"])]))]
  | .string => alt (openings.map fun o => node "string" (seq [
      .token "string_start" true (stringStart o),
      opt (.raw "string_content" true (stringContent o)),
      .raw "string_end" true (literal o.closing)]))
  | .atom => alt [
      chain (.use .string) (wrap "concatenated_string" "" (many1 (.use .string))),
      .token "true" true (word "True"), .token "false" true (word "False"),
      .token "none" true (word "None"), .token "ellipsis" true (literal "..."),
      .token "integer" true (fun s i => (number s i).bind fun stop =>
        if isWhole s i stop then some stop else none),
      .token "float" true number,
      .use .parenthesized, .use .list, .use .braces, ident]
where
  sliceTail : Rule Symbol :=
    seq [sym ":", opt (.use .expression), opt (seq [sym ":", opt (.use .expression)])]
  dottedName : Rule Symbol :=
    node "dotted_name" (seq [ident, many (seq [sym ".", ident])])
  importedName : Rule Symbol :=
    chain dottedName (wrap "aliased_import" "name" (seq [kw "as", field "alias" ident]))
  importedNames : Rule Symbol := alt [
    inBrackets "(" ")" (seq [importedName, many (seq [sym ",", importedName]), opt (sym ",")]),
    seq [importedName, many (seq [sym ",", importedName])]]
  /-- A parameter of a lambda, which has no type. -/
  lambdaParameter : Rule Symbol := alt [
    node "default_parameter" (seq [field "name" ident, op "=" ['='],
      field "value" (.use .expression)]),
    node "dictionary_splat_pattern" (seq [sym "**", ident]),
    node "list_splat_pattern" (seq [sym "*", ident]),
    node "keyword_separator" (sym "*"), node "positional_separator" (sym "/"),
    node "tuple_pattern" (inBrackets "(" ")" (commaSep (.use .access))), ident]

def grammar : Grammar Symbol where
  rule := rule
  skip := skip

end ProjectOutline.Source.Python
