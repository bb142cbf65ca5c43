import SourceFacts.Syntax.Python.Token

/-!
# The grammar of Python

The rules by which the tokens of a Python file form a tree.
-/

namespace SourceFacts.Syntax.Python

/-- What a rule asks of the next token. -/
inductive Terminal where
  /-- This very word. -/
  | word (w : String)
  /-- This very operator or delimiter. -/
  | mark (m : String)
  /-- Any word that may name something. -/
  | name
  /-- A token of this class. -/
  | one (sort : TokenClass)
deriving Repr, BEq, Inhabited

/-- Words that never name anything. -/
def reserved : List String :=
  ["and", "as", "assert", "break", "class", "continue", "def", "del", "elif", "else", "except",
   "except*", "False", "finally", "for", "from", "global", "if", "import", "in", "is", "lambda",
   "None", "nonlocal", "not", "or", "pass", "raise", "return", "True", "try", "while", "with",
   "yield"]

/-- Whether a token answers to a terminal. -/
def Terminal.accepts (t : Terminal) (k : Token) : Bool :=
  match t with
  | .word w => k.sort == .word && k.text == w
  | .mark m => k.sort == .mark && k.text == m
  | .name => k.sort == .word && !reserved.contains k.text
  | .one sort => k.sort == sort

/-- What a terminal makes of a token that answers to it. -/
def Terminal.piece (t : Terminal) (k : Token) : Piece :=
  let body : Option Node :=
    match t with
    | .word w => some { k.node with kind := w, named := false }
    | .one .newline | .one .indent | .one .dedent | .one .finish | .one .formatText => none
    | _ => some k.node
  ⟨k.lead, body, k.node.span⟩

/-- Reads terminals off a list of tokens. -/
def scanner (tokens : Array Token) : Scanner Terminal := fun t i =>
  match tokens[i]? with
  | some k => if t.accepts k then some (t.piece k, i + 1) else none
  | none => none

namespace Rules

open Rule

/-- A rule over tokens. -/
abbrev R := Rule Terminal

/-- A word. -/
def w (word : String) : R := .term (.word word)

/-- An operator or delimiter. -/
def m (mark : String) : R := .term (.mark mark)

/-- A token of a class. -/
def one (sort : TokenClass) : R := .term (.one sort)

/-- A word that names something. -/
def name : R := .term .name

/-- An operator in its role. -/
def op (mark : String) : R := .role "operator" (m mark)

/-- A comma. -/
def comma : R := m ","

/-- A list between commas. -/
def commas (r : R) : R := sepBy comma r

/-- A list between commas, one more of which may follow. -/
def commasAnd (r : R) : R := .seq (commas r) (opt comma)

/-- The literal tokens that stand for themselves. -/
def constants : R :=
  any [.node "true" (w "True"), .node "false" (w "False"), .node "none" (w "None"),
    .node "ellipsis" (m "..."), one .integer, one .float]

/-- The body of a compound statement. -/
def suite (role : String) : R := .role role (.ref "suite")

/-- A left-associative level of binary operators. -/
def level (next : String) (ops : List String) : R :=
  .grow (.ref next)
    (.wrap "binary_operator" (some "left")
      (.seq (.role "operator" (any (ops.map m))) (.role "right" (.ref next))))

/-- Statements. -/
def statements : List (String × R) := [
  ("module", .seq (.ref "statements") (one .finish)),
  ("statements", .star (.ref "statement")),
  ("statement", .alt (.ref "compound") (.ref "simples")),
  ("simples", all [sepBy (m ";") (.ref "simple"), opt (m ";"), one .newline]),
  ("endOfSimple", .ahead (.alt (one .newline) (m ";"))),
  ("simple", .seq (any [
      .ref "future_import", .ref "import", .ref "import_from",
      .node "assert_statement" (.seq (w "assert") (commas (.ref "expression"))),
      .node "return_statement" (.seq (w "return") (opt (.ref "expressions"))),
      .node "delete_statement" (.seq (w "del") (.ref "expressions")),
      .node "raise_statement" (all [w "raise", opt (.ref "expressions"),
        opt (.seq (w "from") (.role "cause" (.ref "expression")))]),
      .node "pass_statement" (w "pass"),
      .node "break_statement" (w "break"),
      .node "continue_statement" (w "continue"),
      .node "global_statement" (.seq (w "global") (commas name)),
      .node "nonlocal_statement" (.seq (w "nonlocal") (commas name)),
      .seq (.ref "type_alias") (.ref "endOfSimple"),
      .seq (.ref "expression_statement") (.ref "endOfSimple"),
      .ref "exec", .ref "print"])
    (.ref "endOfSimple")),
  ("import", .node "import_statement" (.seq (w "import") (.ref "import_list"))),
  ("import_list", commasAnd (.role "name" (.alt (.ref "aliased_import") (.ref "dotted_name")))),
  ("aliased_import", .node "aliased_import"
    (all [.role "name" (.ref "dotted_name"), w "as", .role "alias" name])),
  ("dotted_name", .node "dotted_name" (sepBy (m ".") name)),
  ("relative_import", .node "relative_import"
    (.seq (.node "import_prefix" (.ref "dots")) (opt (.ref "dotted_name")))),
  ("dots", plus (.alt (m ".") (m "..."))),
  ("listed", .alt (all [m "(", .ref "import_list", m ")"]) (.ref "import_list")),
  ("future_import", .node "future_import_statement"
    (all [w "from", w "__future__", w "import", .ref "listed"])),
  ("import_from", .node "import_from_statement"
    (all [w "from",
      .role "module_name" (.alt (.ref "relative_import") (.ref "dotted_name")),
      w "import",
      .alt (.node "wildcard_import" (m "*")) (.ref "listed")])),
  ("expression_statement", .node "expression_statement"
    (any [.seq (.ref "assignment") (.ref "endOfSimple"),
      .seq (.ref "augmented_assignment") (.ref "endOfSimple"),
      .ref "yield",
      commasAnd (.ref "expression")])),
  ("assignment", .node "assignment" (.seq (.role "left" (.ref "left_hand_side"))
    (any [.seq (m "=") (.role "right" (.ref "right_hand_side")),
      all [m ":", .role "type" (.ref "type"), m "=", .role "right" (.ref "right_hand_side")],
      .seq (m ":") (.role "type" (.ref "type"))]))),
  ("augmented_assignment", .node "augmented_assignment" (all [
    .role "left" (.ref "left_hand_side"),
    .role "operator" (any (["+=", "-=", "*=", "/=", "@=", "//=", "%=", "**=", ">>=", "<<=",
      "&=", "^=", "|="].map m)),
    .role "right" (.ref "right_hand_side")])),
  ("left_hand_side", .alt
    (.node "pattern_list" (.seq (.ref "pattern")
      (.alt (.seq (plus (.seq comma (.ref "pattern"))) (opt comma)) comma)))
    (.ref "pattern")),
  ("right_hand_side", any [.ref "assignment", .ref "augmented_assignment", .ref "yield",
    .ref "expressions"]),
  ("pattern", any [
    .seq (.ref "tuple_pattern") (.unless (any [m ".", m "[", m "("])),
    .seq (.ref "list_pattern") (.unless (any [m ".", m "[", m "("])),
    .ref "splat_pattern", .ref "postfix"]),
  ("tuple_pattern", .node "tuple_pattern" (all [m "(", opt (commasAnd (.ref "pattern")), m ")"])),
  ("list_pattern", .node "list_pattern" (all [m "[", opt (commasAnd (.ref "pattern")), m "]"])),
  ("splat_pattern", .node "list_splat_pattern" (.seq (m "*") (.ref "postfix"))),
  ("expressions", .alt
    (.node "expression_list" (.seq (.ref "expression")
      (.alt (.seq (plus (.seq comma (.ref "expression"))) (opt comma)) comma)))
    (.ref "expression")),
  ("yield", .node "yield" (.seq (w "yield")
    (.alt (.seq (w "from") (.ref "expression")) (opt (.ref "expressions"))))),
  ("type_alias", .node "type_alias_statement" (all [w "type", .role "left" (.ref "type"), m "=",
    .role "right" (.ref "type")])),
  ("exec", .node "exec_statement" (all [w "exec", .role "code" (.alt (.ref "string") name),
    opt (.seq (w "in") (commas (.ref "expression")))])),
  ("print", .node "print_statement" (.seq (w "print") (.alt
    (all [.node "chevron" (.seq (m ">>") (.ref "expression")),
      .star (.seq comma (.role "argument" (.ref "expression"))), opt comma])
    (commasAnd (.role "argument" (.ref "expression")))))),
  ("compound", any [.ref "if", .ref "for", .ref "while", .ref "try", .ref "with",
    .ref "function", .ref "class", .ref "decorated", .ref "match"]),
  ("suite", any [
    .seq (one .indent) (.node "block" (.seq (.star (.ref "statement")) (one .dedent))),
    .node "block" (.ref "simples"),
    .node "block" (one .newline)]),
  ("if", .node "if_statement" (all [w "if", .role "condition" (.ref "expression"), m ":",
    suite "consequence",
    .star (.role "alternative" (.node "elif_clause" (all [w "elif",
      .role "condition" (.ref "expression"), m ":", suite "consequence"]))),
    opt (.role "alternative" (.ref "else"))])),
  ("else", .node "else_clause" (all [w "else", m ":", suite "body"])),
  ("for", .node "for_statement" (all [opt (w "async"), w "for",
    .role "left" (.ref "left_hand_side"), w "in", .role "right" (.ref "expressions"), m ":",
    suite "body", opt (.role "alternative" (.ref "else"))])),
  ("while", .node "while_statement" (all [w "while", .role "condition" (.ref "expression"),
    m ":", suite "body", opt (.role "alternative" (.ref "else"))])),
  ("try", .node "try_statement" (all [w "try", m ":", suite "body",
    .star (.alt
      (.node "except_group_clause" (all [w "except*", .ref "captured", m ":", .ref "suite"]))
      (.node "except_clause" (all [w "except",
        opt (.seq (.role "value" (.ref "captured"))
          (opt (.seq comma (.role "alias" (.ref "expression"))))),
        m ":", .ref "suite"]))),
    opt (.ref "else"),
    opt (.node "finally_clause" (all [w "finally", m ":", .ref "suite"]))])),
  ("captured", .alt (.ref "as_pattern") (.ref "expression")),
  ("as_pattern", .node "as_pattern" (all [.ref "expression", w "as",
    .role "alias" (.node "as_pattern_target" (.ref "expression"))])),
  ("with", .node "with_statement" (all [opt (w "async"), w "with",
    .node "with_clause" (.alt
      (.seq (all [m "(", commasAnd (.ref "with_item"), m ")"]) (.ahead (m ":")))
      (commasAnd (.ref "with_item"))),
    m ":", suite "body"])),
  ("with_item", .node "with_item" (.role "value" (.ref "captured"))),
  ("function", .node "function_definition" (all [opt (w "async"), w "def", .role "name" name,
    opt (.role "type_parameters" (.ref "type_parameter")),
    .role "parameters" (.ref "parameters"),
    opt (.seq (m "->") (.role "return_type" (.ref "type"))),
    m ":", suite "body"])),
  ("class", .node "class_definition" (all [w "class", .role "name" name,
    opt (.role "type_parameters" (.ref "type_parameter")),
    opt (.role "superclasses" (.ref "argument_list")), m ":", suite "body"])),
  ("decorated", .node "decorated_definition" (.seq
    (plus (.node "decorator" (all [m "@", .ref "expression", one .newline])))
    (.role "definition" (.alt (.ref "class") (.ref "function"))))),
  ("match", .node "match_statement" (all [w "match",
    commasAnd (.role "subject" (.ref "expression")), m ":",
    .role "body" (.node "block" (.alt
      (all [one .indent, .star (.role "alternative" (.ref "case")), one .dedent])
      (one .newline)))])),
  ("case", .node "case_clause" (all [w "case", commasAnd (.ref "case_pattern"),
    opt (.role "guard" (.ref "if_clause")), m ":", suite "consequence"]))
]

/-- The patterns of `match` statements. -/
def casePatterns : List (String × R) := [
  ("case_pattern", .node "case_pattern" (any [
    .node "as_pattern" (all [.node "case_pattern" (.ref "plain_pattern"), w "as", name]),
    .node "keyword_pattern" (all [name, m "=", .ref "plain_pattern"]),
    .ref "plain_pattern"])),
  ("plain_pattern", .grow (.ref "single_pattern")
    (.wrap "union_pattern" none (plus (.seq (m "|") (.ref "single_pattern"))))),
  ("single_pattern", any [
    .node "class_pattern" (all [.ref "dotted_name", m "(",
      opt (commasAnd (.ref "case_pattern")), m ")"]),
    .node "splat_pattern" (.seq (.alt (m "**") (m "*")) (.alt (w "_") name)),
    .node "list_pattern" (all [m "[", opt (commasAnd (.ref "case_pattern")), m "]"]),
    .node "tuple_pattern" (all [m "(", opt (commasAnd (.ref "case_pattern")), m ")"]),
    .node "dict_pattern" (all [m "\x7b", opt (commasAnd (.alt
      (.node "splat_pattern" (.seq (m "**") (.alt (w "_") name)))
      (all [.role "key" (.ref "plain_pattern"), m ":", .role "value" (.ref "case_pattern")]))),
      m "\x7d"]),
    .ref "strings",
    .node "complex_pattern" (all [opt (m "-"), .ref "number", .alt (m "+") (m "-"),
      .ref "number"]),
    .seq (opt (m "-")) (.ref "number"),
    constants,
    .seq (w "_") (.unless (m ".")),
    .ref "dotted_name"]),
  ("number", .alt (one .integer) (one .float))
]

/-- Parameters, arguments and types. -/
def signatures : List (String × R) := [
  ("parameters", .node "parameters" (all [m "(", opt (commasAnd (.ref "parameter")), m ")"])),
  ("parameter", any [
    .node "typed_default_parameter" (all [.role "name" name, m ":", .role "type" (.ref "type"),
      m "=", .role "value" (.ref "expression")]),
    .node "typed_parameter" (all [any [name, .ref "list_splat_name", .ref "map_splat_name"],
      m ":", .role "type" (.ref "type")]),
    .ref "plain_parameter"]),
  ("plain_parameter", any [
    .node "default_parameter" (all [.role "name" (.alt name (.ref "tuple_pattern")), m "=",
      .role "value" (.ref "expression")]),
    .ref "list_splat_name", .ref "map_splat_name", .ref "tuple_pattern",
    .node "keyword_separator" (m "*"), .node "positional_separator" (m "/"), name]),
  ("list_splat_name", .node "list_splat_pattern" (.seq (m "*") (.ref "postfix"))),
  ("map_splat_name", .node "dictionary_splat_pattern" (.seq (m "**") (.ref "postfix"))),
  ("type_parameter", .node "type_parameter" (all [m "[", commasAnd (.ref "constrained"), m "]"])),
  ("constrained", .alt
    (.node "type" (.node "constrained_type" (all [.ref "type", m ":", .ref "type"])))
    (.ref "type")),
  ("type", .node "type" (.ref "type_body")),
  ("type_body", .alt
    (.grow (.ref "applied_type") (any [
      .wrap "union_type" none (.seq (m "|") (.ref "type")),
      .wrap "member_type" none (.seq (m ".") name)]))
    (.ref "expression")),
  ("applied_type", .alt
    (.node "generic_type" (.seq name (.ref "type_parameter")))
    (.node "splat_type" (.seq (.alt (m "**") (m "*")) name))),
  ("argument_list", .node "argument_list" (all [m "(", opt (commas (.ref "argument")), opt comma,
    m ")"])),
  ("argument", any [
    .node "keyword_argument" (all [.role "name" name, m "=", .role "value" (.ref "expression")]),
    .ref "list_splat", .ref "dictionary_splat", .ref "splat_in_parentheses",
    .ref "expression"]),
  ("splat_in_parentheses", .node "parenthesized_expression"
    (all [m "(", .alt (.ref "splat_in_parentheses") (.ref "list_splat"), m ")"])),
  ("list_splat", .node "list_splat" (.seq (m "*") (.ref "expression"))),
  ("dictionary_splat", .node "dictionary_splat" (.seq (m "**") (.ref "expression")))
]

/-- Expressions, from the loosest to the tightest. -/
def expressions : List (String × R) := [
  ("expression", any [
    .node "named_expression" (all [.role "name" name, m ":=",
      .role "value" (.ref "disjunction")]),
    .node "conditional_expression" (all [.ref "disjunction", w "if", .ref "disjunction",
      w "else", .ref "expression"]),
    .ref "disjunction"]),
  ("disjunction", .grow (.ref "conjunction") (.wrap "boolean_operator" (some "left")
    (.seq (.role "operator" (w "or")) (.role "right" (.ref "conjunction"))))),
  ("conjunction", .grow (.ref "negation") (.wrap "boolean_operator" (some "left")
    (.seq (.role "operator" (w "and")) (.role "right" (.ref "negation"))))),
  ("negation", any [
    .node "not_operator" (.seq (w "not") (.role "argument" (.ref "negation"))),
    .ref "lambda", .ref "comparison"]),
  ("lambda", .node "lambda" (all [w "lambda",
    opt (.role "parameters" (.node "lambda_parameters" (commasAnd (.ref "plain_parameter")))),
    m ":", .role "body" (.ref "expression")])),
  ("comparison", .alt
    (.node "comparison_operator" (.seq (.ref "bit_or")
      (plus (.seq (.role "operators" (.ref "comparator")) (.ref "bit_or")))))
    (.ref "bit_or")),
  ("comparator", any ((["<", "<=", "==", "!=", ">=", ">", "<>"].map m) ++ [
    w "in", .phrase "not in" (.seq (w "not") (w "in")),
    .phrase "is not" (.seq (w "is") (w "not")), w "is"])),
  ("bit_or", level "bit_and" ["|"]),
  ("bit_and", level "bit_xor" ["&"]),
  ("bit_xor", level "shift" ["^"]),
  ("shift", level "sum" ["<<", ">>"]),
  ("sum", level "product" ["+", "-"]),
  ("product", level "signed" ["*", "@", "/", "%", "//"]),
  ("signed", any [
    .node "unary_operator" (.seq (.role "operator" (any [m "+", m "-", m "~"]))
      (.role "argument" (.ref "signed"))),
    .node "await" (.seq (w "await") (.ref "power")),
    .ref "power"]),
  ("power", .grow (.ref "postfix") (.wrap "binary_operator" (some "left")
    (.seq (op "**") (.role "right" (.ref "signed"))))),
  ("postfix", .grow (.ref "atom") (any [
    .wrap "attribute" (some "object") (.seq (m ".") (.role "attribute" name)),
    .wrap "call" (some "function") (.role "arguments"
      (.alt (.ref "generator") (.ref "argument_list"))),
    .wrap "subscript" (some "value") (all [m "[",
      commasAnd (.role "subscript" (.alt (.ref "slice") (.ref "expression"))), m "]"])])),
  ("slice", .node "slice" (all [opt (.ref "expression"), m ":", opt (.ref "expression"),
    opt (.seq (m ":") (opt (.ref "expression")))])),
  ("atom", any [
    .ref "strings", constants, .ref "generator", .ref "tuple", .ref "parenthesized",
    .ref "list_comprehension", .ref "list", .ref "dictionary_comprehension",
    .ref "set_comprehension", .ref "dictionary", .ref "set",
    .node "list_splat" (.seq (m "*") (.ref "postfix")),
    name]),
  ("parenthesized", .node "parenthesized_expression"
    (all [m "(", .alt (.ref "yield") (.ref "captured"), m ")"])),
  ("elements", commasAnd (any [.ref "yield", .ref "list_splat", .ref "splat_in_parentheses",
    .ref "expression"])),
  ("tuple", .node "tuple" (any [
    .seq (m "(") (m ")"),
    .seq (all [m "(", .ahead (.seq (any [.ref "yield", .ref "list_splat",
      .ref "splat_in_parentheses", .ref "expression"]) comma)])
      (.seq (.ref "elements") (m ")"))])),
  ("list", .node "list" (all [m "[", opt (.ref "elements"), m "]"])),
  ("set", .node "set" (all [m "\x7b", .ref "elements", m "\x7d"])),
  ("dictionary", .node "dictionary" (all [m "\x7b",
    opt (commas (.alt (.ref "dictionary_splat") (.ref "pair"))), opt comma, m "\x7d"])),
  ("pair", .node "pair" (all [.role "key" (.ref "expression"), m ":",
    .role "value" (.ref "expression")])),
  ("generator", .node "generator_expression" (all [m "(", .role "body" (.ref "expression"),
    .ref "clauses", m ")"])),
  ("list_comprehension", .node "list_comprehension" (all [m "[",
    .role "body" (.ref "expression"), .ref "clauses", m "]"])),
  ("set_comprehension", .node "set_comprehension" (all [m "\x7b",
    .role "body" (.ref "expression"), .ref "clauses", m "\x7d"])),
  ("dictionary_comprehension", .node "dictionary_comprehension" (all [m "\x7b",
    .role "body" (.ref "pair"), .ref "clauses", m "\x7d"])),
  ("clauses", .seq (.ref "for_in_clause")
    (.star (.alt (.ref "for_in_clause") (.ref "if_clause")))),
  ("for_in_clause", .node "for_in_clause" (all [opt (w "async"), w "for",
    .role "left" (.ref "left_hand_side"), w "in",
    .role "right" (commas (.ref "expression")), opt comma])),
  ("if_clause", .node "if_clause" (.seq (w "if") (.ref "expression"))),
  ("strings", .alt
    (.node "concatenated_string" (.seq (.ref "string") (plus (.ref "string"))))
    (.ref "string")),
  ("string", .node "string" (all [one .stringStart,
    .star (.alt (one .stringContent) (.ref "interpolation")), one .stringEnd])),
  ("interpolation", .node "interpolation" (.ref "field")),
  ("field", all [m "\x7b",
    .role "expression" (.alt (.ref "yield") (.ref "expressions")), opt (m "="),
    opt (.role "type_conversion" (one .conversion)),
    opt (.role "format_specifier" (.ref "format_specifier")), m "\x7d"]),
  ("format_specifier", .node "format_specifier" (.seq (m ":")
    (.star (.alt (one .formatText) (.node "format_expression" (.ref "field"))))))
]

end Rules

/-- The grammar of Python. -/
def grammar : Grammar Terminal :=
  .ofList (Rules.statements ++ Rules.casePatterns ++ Rules.signatures ++ Rules.expressions)

/-- The syntax tree of a Python source, and whether every part of it was understood; if not, the
tree ends before the first statement that was not. -/
def parse (t : SourceText) : Node × Bool :=
  let tokens := Python.tokens t
  let fuel := 400 * (tokens.size + 8)
  let readAll (name : String) : Reading :=
    (grammar.read (scanner tokens) fuel (.ref name) [] 0 {}).1
  let (pieces, ok) : List Piece × Bool := match readAll "module" with
    | some (ps, _) => (ps, true)
    | none => ((readAll "statements").elim [] fun (ps, _) => ps, false)
  let nodes := Piece.nodes pieces
  let start := (nodes.head?.map (·.span.start)).getD t.size
  ({ kind := "module", named := true, role := none, span := t.span start t.size,
     children := nodes }, ok)

end SourceFacts.Syntax.Python
