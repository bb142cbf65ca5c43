import SourceFacts.Syntax.TypeScript.Scanner

/-!
# The grammar of TypeScript

The rules by which TypeScript source forms a tree. The two dialects differ in one place: plain
TypeScript reads an angle bracket before an expression as a cast, the other one as a tag.
-/

namespace SourceFacts.Syntax.TypeScript

/-- Whether angle brackets cast or open tags. -/
inductive Dialect where
  | plain | tags
deriving Repr, BEq, DecidableEq, Inhabited

namespace Rules

open Rule

/-- A rule over terminals. -/
abbrev R := Rule Terminal

/-- A word. -/
def w (word : String) : R := .term (.word word)

/-- An operator or delimiter. -/
def m (mark : String) : R := .term (.mark mark)

/-- These very characters. -/
def raw (text : String) : R := .term (.raw text)

/-- A word that names a value. -/
def name : R := .term (.name "identifier")

/-- A word that names a type. -/
def typeName : R := .term (.name "type_identifier")

/-- A word that names a property. -/
def propertyName : R := .term (.anyName "property_identifier")

/-- A comma. -/
def comma : R := m ","

/-- A list between commas. -/
def commas (r : R) : R := sepBy comma r

/-- One of several operators or delimiters. -/
def marks (ms : List String) : R := any (ms.map m)

/-- No line break before the next token. -/
def sameLine : R := .ahead (.term .sameLine)

/-- The end of a statement. -/
def semi : R := .alt (m ";") (.term (.lineEnd false))

/-- The end of a statement whose last part is a type. -/
def semiType : R := .alt (m ";") (.term (.lineEnd true))

/-- The missing semicolon that may follow a closing brace. -/
def lineEnd : R := opt (.term (.lineEnd false))

/-- A word that is a modifier unless it is itself the name of the member. -/
def modifier (word : String) : R :=
  .seq (w word) (.unless (.alt (marks ["(", "=", ";", ":", "?", "!", ",", "\x7d", "<"])
    (.seq (.term (.lineEnd false)) .empty)))

/-- A modifier that may be missing. -/
def perhaps (word : String) : R := opt (modifier word)

/-- A level of left-associative binary operators. -/
def level (next : String) (ops : List R) : R :=
  .grow (.ref next) (.wrap "binary_expression" (some "left")
    (.seq (.role "operator" (any ops)) (.role "right" (.ref next))))

/-- Items between brackets, any of which may be missing. -/
def holed (r : R) : R := .seq (opt r) (.star (.seq comma (opt r)))

/-- Statements. -/
def statements : List (String × R) := [
  ("program", .seq (.ref "statements") (.term .finish)),
  ("statements", .seq (opt (.term .hashBang)) (.star (.ref "statement"))),
  ("statement", any [
    .ref "export", .ref "import", .ref "declaration", .ref "block", .ref "if", .ref "switch",
    .ref "for_in", .ref "for", .ref "while", .ref "do", .ref "try",
    .node "with_statement" (all [w "with", .role "object" (.ref "parenthesized"),
      .role "body" (.ref "statement")]),
    .node "break_statement" (.seq (w "break") (.ref "jump")),
    .node "continue_statement" (.seq (w "continue") (.ref "jump")),
    .node "debugger_statement" (.seq (w "debugger") semi),
    .node "return_statement" (.seq (w "return") (.alt semi (.seq (.ref "expressions") semi))),
    .node "throw_statement" (all [w "throw", .ref "expressions", semi]),
    .node "empty_statement" (m ";"),
    .node "labeled_statement" (all [.role "label" (.term (.name "statement_identifier")), m ":",
      .role "body" (.ref "statement")]),
    .node "expression_statement" (.ref "internal_module"),
    .node "expression_statement" (.seq (.ref "expressions") semi)]),
  ("jump", .alt semi
    (.seq (.role "label" (.term (.name "statement_identifier"))) semi)),
  ("block", .node "statement_block" (all [m "\x7b", .star (.ref "statement"), m "\x7d",
    lineEnd])),
  ("if", .node "if_statement" (all [w "if", .role "condition" (.ref "parenthesized"),
    .role "consequence" (.ref "statement"),
    opt (.role "alternative" (.node "else_clause" (.seq (w "else") (.ref "statement"))))])),
  ("switch", .node "switch_statement" (all [w "switch", .role "value" (.ref "parenthesized"),
    .role "body" (.node "switch_body" (all [m "\x7b",
      .star (.alt
        (.node "switch_case" (all [w "case", .role "value" (.ref "expressions"), m ":",
          .role "body" (.star (.ref "statement"))]))
        (.node "switch_default" (all [w "default", m ":",
          .role "body" (.star (.ref "statement"))]))),
      m "\x7d"]))])),
  ("for_in", .node "for_in_statement" (all [w "for", opt (w "await"), m "(",
    any [
      all [.role "kind" (w "var"), .role "left" (.ref "binding"),
        opt (.ref "initializer")],
      .seq (.role "kind" (.alt (w "let") (w "const"))) (.role "left" (.ref "binding")),
      .role "left" (.ref "chain")],
    .role "operator" (.alt (w "in") (w "of")), .role "right" (.ref "expressions"), m ")",
    .role "body" (.ref "statement")])),
  ("for", .node "for_statement" (all [w "for", m "(",
    .role "initializer" (any [.ref "lexical", .ref "variable",
      .node "empty_statement" (m ";"), .seq (.ref "expressions") (m ";")]),
    .role "condition" (.alt (.node "empty_statement" (m ";"))
      (.seq (.ref "expressions") (m ";"))),
    opt (.role "increment" (.ref "expressions")), m ")", .role "body" (.ref "statement")])),
  ("while", .node "while_statement" (all [w "while", .role "condition" (.ref "parenthesized"),
    .role "body" (.ref "statement")])),
  ("do", .node "do_statement" (all [w "do", .role "body" (.ref "statement"), w "while",
    .role "condition" (.ref "parenthesized"), opt semi])),
  ("try", .node "try_statement" (all [w "try", .role "body" (.ref "block"),
    opt (.role "handler" (.node "catch_clause" (all [w "catch",
      opt (all [m "(", .role "parameter" (.ref "binding"),
        opt (.role "type" (.ref "annotation")), m ")"]),
      .role "body" (.ref "block")]))),
    opt (.role "finalizer" (.node "finally_clause" (.seq (w "finally")
      (.role "body" (.ref "block")))))])),
  ("import", .alt
    (.node "import_alias" (all [w "import", name, m "=", .unless (w "require"),
      .alt (.seq (.ref "nested") .empty) name, semi]))
    (.node "import_statement" (all [w "import", .unless (marks ["(", "."]),
      opt (.seq (.alt (w "type") (w "typeof")) (.unless (.alt (w "from") (marks [",", "="])))),
      any [.seq (.ref "import_clause") (.ref "from"),
        .node "import_require_clause" (all [name, m "=", w "require", m "(",
          .role "source" (.term .string), m ")"]),
        .role "source" (.term .string)],
      opt (.ref "import_attribute"), semi]))),
  ("import_attribute", .node "import_attribute"
    (all [.alt (w "with") (.seq sameLine (w "assert")), .ref "object"])),
  ("from", .seq (w "from") (.role "source" (.term .string))),
  ("import_clause", .node "import_clause" (any [
    .ref "namespace_import", .ref "named_imports",
    .seq name (opt (.seq comma (.alt (.ref "namespace_import") (.ref "named_imports"))))])),
  ("namespace_import", .node "namespace_import" (all [m "*", w "as", name])),
  ("named_imports", .node "named_imports" (all [m "\x7b",
    opt (commas (.ref "import_specifier")), opt comma, m "\x7d"])),
  ("import_specifier", .node "import_specifier" (.alt
    (.seq (.alt (w "type") (w "typeof")) (.ref "imported_name")) (.ref "imported_name"))),
  ("imported_name", .seq
    (.alt (all [.role "name" (.ref "module_name"), w "as", .role "alias" name])
      (.role "name" name))
    (.ahead (marks [",", "\x7d"]))),
  ("module_name", any [.term .string, w "default", .term (.anyName "identifier")]),
  ("export", .node "export_statement" (any [
    all [w "export", any [
        .seq (m "*") (.ref "from"),
        .seq (.node "namespace_export" (all [m "*", w "as", .ref "module_name"])) (.ref "from"),
        .seq (.ref "export_clause") (.ref "from"),
        .ref "export_clause"], opt (.ref "import_attribute"), semi],
    all [w "export", w "type", .ref "export_clause", opt (.ref "from"), semi],
    .seq (w "export") (.ref "import_equals"),
    all [w "export", m "=", .ref "expression", semi],
    all [w "export", w "as", w "namespace", name, semi],
    all [.star (.role "decorator" (.ref "decorator")), w "export", .alt
      (.seq (w "default") (.alt (.role "declaration" (.ref "declaration"))
        (.seq (.role "value" (.ref "expression")) semi)))
      (.role "declaration" (.ref "declaration"))]])),
  ("import_equals", .node "import_alias" (all [w "import", name, m "=",
    .alt (.ref "nested") name, semi])),
  ("export_clause", .node "export_clause" (all [m "\x7b",
    opt (commas (.ref "export_specifier")), opt comma, m "\x7d"])),
  ("export_specifier", .node "export_specifier" (.seq
    (opt (.seq (.alt (w "type") (w "typeof")) (.unless (.alt (w "as") (marks [",", "\x7d"])))))
    (.seq (.role "name" (.ref "module_name"))
      (opt (.seq (w "as") (.role "alias" (.ref "module_name"))))))),
  ("nested", .grow name (.wrap "nested_identifier" (some "object")
    (.seq (m ".") (.role "property" propertyName))))
]

/-- Declarations. -/
def declarations : List (String × R) := [
  ("declaration", any [
    .ref "lexical", .ref "variable", .ref "function", .ref "class", .ref "abstract_class",
    .ref "interface", .ref "type_alias", .ref "enum", .ref "module", .ref "ambient",
    .ref "exported_module"]),
  ("lexical", .node "lexical_declaration" (all [
    .role "kind" (.alt (.seq (w "const") (.unless (w "enum")))
      (.seq (w "let") (.unless (marks ["=", ".", "(", ";", ")"])))),
    commas (.ref "declarator"), semi])),
  ("variable", .node "variable_declaration" (all [w "var", commas (.ref "declarator"), semi])),
  ("declarator", .node "variable_declarator" (.alt
    (all [.role "name" name, m "!", .role "type" (.ref "annotation")])
    (all [.role "name" (.ref "binding"), opt (.role "type" (.ref "annotation")),
      opt (.ref "initializer")]))),
  ("binding", any [.ref "object_pattern", .ref "array_pattern", name]),
  ("initializer", .seq (m "=") (.role "value" (.ref "expression"))),
  ("function", any [
    .node "generator_function_declaration" (all [opt (w "async"), w "function", m "*",
      .role "name" name, .ref "call_signature", .role "body" (.ref "block"), lineEnd]),
    .node "function_declaration" (all [opt (w "async"), w "function", .role "name" name,
      .ref "call_signature", .role "body" (.ref "block"), lineEnd]),
    .node "function_signature" (all [opt (w "async"), w "function", .role "name" name,
      .ref "call_signature", semiType])]),
  ("decorators", .star (.role "decorator" (.ref "decorator"))),
  ("class", .node "class_declaration" (all [.ref "decorators", w "class",
    .role "name" typeName, .ref "class_rest", lineEnd])),
  ("abstract_class", .node "abstract_class_declaration" (all [.ref "decorators", w "abstract",
    w "class", .role "name" typeName, .ref "class_rest"])),
  ("class_rest", all [opt (.role "type_parameters" (.ref "type_parameters")),
    opt (.ref "class_heritage"), .role "body" (.ref "class_body")]),
  ("class_heritage", .node "class_heritage" (.alt
    (.seq (.ref "extends_clause") (opt (.ref "implements_clause")))
    (.ref "implements_clause"))),
  ("extends_clause", .node "extends_clause" (.seq (w "extends") (commas
    (.seq (.role "value" (.ref "heritage_value"))
      (opt (.role "type_arguments" (.ref "type_arguments"))))))),
  ("implements_clause", .node "implements_clause" (.seq (w "implements")
    (commas (.ref "type")))),
  ("interface", .node "interface_declaration" (all [w "interface", .role "name" typeName,
    opt (.role "type_parameters" (.ref "type_parameters")),
    opt (.node "extends_type_clause" (.seq (w "extends")
      (commas (.role "type" (.ref "named_type"))))),
    .role "body" (.node "interface_body" (.ref "members"))])),
  ("type_alias", .node "type_alias_declaration" (all [w "type", .role "name" typeName,
    opt (.role "type_parameters" (.ref "type_parameters")), m "=",
    .role "value" (.ref "type"), semiType])),
  ("enum", .node "enum_declaration" (all [opt (w "const"), w "enum", .role "name" name,
    .role "body" (.node "enum_body" (all [m "\x7b",
      opt (commas (.alt
        (.node "enum_assignment" (.seq (.role "name" (.ref "property_name"))
          (.ref "initializer")))
        (.role "name" (.ref "property_name")))), opt comma, m "\x7d"]))])),
  ("module", .node "module" (.seq (w "module") (.ref "module_rest"))),
  ("internal_module", .node "internal_module" (.seq (w "namespace") (.ref "module_rest"))),
  ("exported_module", .ref "internal_module"),
  ("module_rest", .seq (sameLine)
    (.seq (.role "name" (.alt (.term .string) (.ref "nested")))
      (opt (.role "body" (.ref "block"))))),
  ("ambient", .node "ambient_declaration" (.seq (w "declare") (any [
    .ref "declaration",
    .seq (w "global") (.ref "block")])))
]

/-- Classes, their members, parameters and decorators. -/
def members : List (String × R) := [
  ("class_body", .node "class_body" (all [m "\x7b", .star (.ref "member"), m "\x7d"])),
  ("member", any [
    m ";",
    .ref "static_block",
    .seq (.ref "abstract_method") (.alt semiType comma),
    .seq (.ref "index_signature") (.alt semiType comma),
    .seq (.ref "method") (opt semi),
    .seq (.ref "method_signature") (.alt semiType comma),
    .seq (.ref "field") (.alt (.ref "field_end") comma),
    .ref "decorator"]),
  ("field_end", .alt semi (.term (.lineEnd true))),
  ("static_block", .node "class_static_block" (all [w "static", .role "body" (.ref "block")])),
  ("accessibility", .node "accessibility_modifier"
    (any [modifier "public", modifier "private", modifier "protected"])),
  ("override", .node "override_modifier" (modifier "override")),
  ("accessor_mark", any [modifier "get", modifier "set", m "*"]),
  ("signature_start", all [opt (.ref "accessibility"), perhaps "static", opt (.ref "override"),
    perhaps "readonly", perhaps "async", opt (.ref "accessor_mark"),
    .role "name" (.ref "property_name"), opt (m "?"), .ref "call_signature"]),
  ("method", .node "method_definition" (.seq (.ref "signature_start")
    (.role "body" (.ref "block")))),
  ("method_signature", .node "method_signature" (.ref "signature_start")),
  ("abstract_method", .node "abstract_method_signature" (all [opt (.ref "accessibility"),
    modifier "abstract", opt (.ref "override"), opt (.ref "accessor_mark"),
    .role "name" (.ref "property_name"), opt (m "?"), .ref "call_signature"])),
  ("field", .node "public_field_definition" (all [.ref "decorators",
    opt (.alt (.seq (modifier "declare") (opt (.ref "accessibility")))
      (.seq (.ref "accessibility") (perhaps "declare"))),
    any [.seq (modifier "accessor") .empty,
      .seq (modifier "abstract") (perhaps "readonly"),
      all [perhaps "static", opt (.ref "override"), perhaps "readonly",
        perhaps "abstract"]],
    .role "name" (.ref "property_name"), opt (marks ["?", "!"]),
    opt (.role "type" (.ref "annotation")), opt (.ref "initializer")])),
  ("property_name", any [.node "computed_property_name" (all [m "[", .ref "expression", m "]"]),
    .term .privateName, .term .string, .term .number, propertyName]),
  ("call_signature", all [opt (.role "type_parameters" (.ref "type_parameters")),
    .role "parameters" (.ref "parameters"),
    opt (.role "return_type" (.ref "return_type"))]),
  ("return_type", any [
    .node "asserts_annotation" (.seq (m ":") (.ref "asserts")),
    .node "type_predicate_annotation" (.seq (m ":") (.ref "type_predicate")),
    .ref "annotation"]),
  ("asserts", .node "asserts" (.seq (.seq (w "asserts") sameLine)
    (any [.ref "type_predicate", .node "this" (w "this"), name]))),
  ("type_predicate", .node "type_predicate" (all [
    .role "name" (.alt (.node "this" (w "this")) name), sameLine, w "is",
    .role "type" (.ref "type")])),
  ("parameters", .node "formal_parameters" (all [m "(",
    opt (.seq (commas (.ref "parameter")) (opt comma)), m ")"])),
  ("parameter", .alt
    (.node "optional_parameter" (all [.ref "parameter_name", m "?",
      opt (.role "type" (.ref "annotation")), opt (.ref "initializer")]))
    (.node "required_parameter" (all [.ref "parameter_name",
      opt (.role "type" (.ref "annotation")), opt (.ref "initializer")]))),
  ("parameter_name", all [.ref "decorators", opt (.ref "accessibility_of_parameter"),
    opt (.node "override_modifier" (.seq (w "override") (.unless (.ref "parameter_end")))),
    opt (.seq (w "readonly") (.unless (.ref "parameter_end"))),
    .role "pattern" (any [.node "this" (w "this"), .ref "rest_pattern", .ref "binding"])]),
  ("accessibility_of_parameter", .node "accessibility_modifier"
    (.seq (any [w "public", w "private", w "protected"]) (.unless (.ref "parameter_end")))),
  ("parameter_end", marks [",", ")", ":", "?", "=", "=>"]),
  ("decorator", .node "decorator" (.seq (m "@") (any [
    .node "parenthesized_expression" (all [m "(", .ref "decoration", m ")"]),
    .ref "decoration"]))),
  ("decoration", .grow (.ref "decorator_name")
    (.wrap "call_expression" (some "function") (.seq
      (opt (.role "type_arguments" (.ref "type_arguments")))
      (.role "arguments" (.ref "arguments"))))),
  ("decorator_name", .grow name (.wrap "member_expression" (some "object")
    (.seq (m ".") (.role "property" propertyName))))
]

/-- Patterns. -/
def patterns : List (String × R) := [
  ("pattern", any [.ref "rest_pattern", .ref "object_pattern", .ref "array_pattern",
    .ref "chain"]),
  ("rest_pattern", .node "rest_pattern" (.seq (m "...")
    (any [.ref "object_pattern", .ref "array_pattern", .ref "chain"]))),
  ("object_pattern", .node "object_pattern" (all [m "\x7b",
    holed (any [
      .node "pair_pattern" (all [.role "key" (.ref "property_name"), m ":",
        .role "value" (.ref "defaulted")]),
      .ref "rest_pattern",
      .node "object_assignment_pattern" (all [
        .role "left" (.term (.name "shorthand_property_identifier_pattern")), m "=",
        .role "right" (.ref "expression")]),
      .term (.name "shorthand_property_identifier_pattern")]), m "\x7d"])),
  ("array_pattern", .node "array_pattern" (all [m "[", holed (.ref "defaulted"), m "]"])),
  ("defaulted", .alt
    (.node "assignment_pattern" (all [.role "left" (.ref "pattern"), m "=",
      .role "right" (.ref "expression")]))
    (.ref "pattern"))
]

/-- Expressions, from the loosest to the tightest. -/
def expressions (dialect : Dialect) : List (String × R) := [
  ("expressions", .alt
    (.node "sequence_expression" (.seq (.ref "expression")
      (plus (.seq comma (.ref "expression")))))
    (.ref "expression")),
  ("expression", any [
    .ref "arrow",
    .node "yield_expression" (.seq (w "yield") (.alt (.seq (m "*") (.ref "expression"))
      (opt (.seq sameLine (.ref "expression"))))),
    .node "assignment_expression" (all [.role "left" (.ref "assigned"), m "=",
      .role "right" (.ref "expression")]),
    .node "augmented_assignment_expression" (all [.role "left" (.ref "chain"),
      .role "operator" (marks ["+=", "-=", "*=", "/=", "%=", "^=", "&=", "|=", ">>=", ">>>=",
        "<<=", "**=", "&&=", "||=", "??="]),
      .role "right" (.ref "expression")]),
    .node "ternary_expression" (all [.role "condition" (.ref "coalesced"), m "?",
      .role "consequence" (.alt (.seq (.ref "expression") (.ahead (m ":"))) (.ref "coalesced")),
      m ":", .role "alternative" (.ref "expression")]),
    .ref "coalesced"]),
  ("assigned", any [.seq (.ref "object_pattern") (.ahead (m "=")),
    .seq (.ref "array_pattern") (.ahead (m "=")), .ref "chain"]),
  ("arrow", .node "arrow_function" (all [opt (.seq (w "async") (.unless (m "=>"))),
    .alt (.role "parameter" (.seq name (.ahead (m "=>")))) (.ref "call_signature"), m "=>",
    .role "body" (.alt (.ref "block") (.ref "expression"))])),
  ("coalesced", level "disjunction" [m "??"]),
  ("disjunction", level "conjunction" [m "||"]),
  ("conjunction", level "bit_or" [m "&&"]),
  ("bit_or", level "bit_xor" [m "|"]),
  ("bit_xor", level "bit_and" [m "^"]),
  ("bit_and", level "equality" [m "&"]),
  ("equality", level "relation" [m "===", m "!==", m "==", m "!="]),
  ("relation", .grow
    (.alt (.seq (.term .privateName) (.ahead (w "in"))) (.ref "shift")) (any [
    .wrap "binary_expression" (some "left") (.seq
      (.role "operator" (any [m "<=", m ">=", m "<", m ">", w "instanceof", w "in"]))
      (.role "right" (.ref "shift"))),
    .wrap "as_expression" none (all [sameLine, w "as", .alt (w "const") (.ref "type")]),
    .wrap "satisfies_expression" none (all [sameLine, w "satisfies", .ref "type"])])),
  ("shift", level "sum" [m "<<", m ">>>", m ">>"]),
  ("sum", level "product" [m "+", m "-"]),
  ("product", level "power" [m "*", m "/", m "%"]),
  ("power", .alt
    (.node "binary_expression" (all [.role "left" (.ref "unary"), .role "operator" (m "**"),
      .role "right" (.ref "power")]))
    (.ref "unary")),
  ("unary", any ([
    .node "unary_expression" (.seq
      (.role "operator" (any [m "!", m "~", m "-", m "+", w "typeof", w "void", w "delete"]))
      (.role "argument" (.ref "unary"))),
    .node "update_expression" (.seq (.role "operator" (marks ["++", "--"]))
      (.role "argument" (.ref "unary"))),
    .node "await_expression" (.seq (w "await") (.ref "unary"))] ++
    (if dialect = .plain then
      [.node "type_assertion" (.seq (.ref "type_arguments") (.ref "unary"))] else []) ++
    [.grow (.ref "chain") (.wrap "update_expression" (some "argument")
      (.seq sameLine (.role "operator" (marks ["++", "--"]))))])),
  ("member_step", .seq (.alt (m ".") (.role "optional_chain" (.node "optional_chain" (m "?."))))
    (.role "property" (.alt (.term .privateName) propertyName))),
  ("subscript_step", all [opt (.role "optional_chain" (.node "optional_chain" (m "?."))),
    m "[", .role "index" (.ref "expressions"), m "]"]),
  ("chain", .grow (.alt (.ref "new") (.ref "primary")) (any [
    .wrap "member_expression" (some "object") (.ref "member_step"),
    .wrap "subscript_expression" (some "object") (.ref "subscript_step"),
    .wrap "call_expression" (some "function") (.seq (opt (m "?."))
      (.seq (opt (.role "type_arguments" (.ref "type_arguments")))
        (.role "arguments" (.ref "arguments")))),
    .wrap "call_expression" (some "function") (.role "arguments" (.ref "template")),
    .wrap "non_null_expression" none (.seq sameLine (m "!")),
    .wrap "instantiation_expression" none (.seq
      (.role "type_arguments" (.ref "type_arguments")) (.unless (.ref "operand_start")))])),
  ("operand_start", any [.term (.anyName "identifier"), .term .number, .term .string, m "(",
    m "[", m "\x7b", m "!", m "~", m "-", m "+", .term .templateOpen]),
  ("heritage_value", .grow (.alt (.ref "new") (.ref "primary")) (any [
    .wrap "member_expression" (some "object") (.ref "member_step"),
    .wrap "subscript_expression" (some "object") (.ref "subscript_step"),
    .wrap "call_expression" (some "function") (.seq
      (opt (.role "type_arguments" (.ref "type_arguments")))
      (.role "arguments" (.ref "arguments"))),
    .wrap "non_null_expression" none (.seq sameLine (m "!"))])),
  ("new", .alt
    (.node "meta_property" (all [w "new", m ".", w "target"]))
    (.node "new_expression" (all [w "new",
      .role "constructor" (.grow (.alt (.ref "new") (.ref "primary")) (any [
        .wrap "member_expression" (some "object") (.ref "member_step"),
        .wrap "subscript_expression" (some "object") (.ref "subscript_step"),
        .wrap "non_null_expression" none (.seq sameLine (m "!"))])),
      opt (.seq (.role "type_arguments" (.ref "type_arguments")) (.ahead (.alt (m "(")
        (.unless (.ref "operand_start"))))),
      opt (.role "arguments" (.ref "arguments"))]))),
  ("arguments", .node "arguments" (all [m "(",
    holed (.alt (.ref "spread") (.ref "expression")), m ")"])),
  ("spread", .node "spread_element" (.seq (m "...") (.ref "expression"))),
  ("primary", any ([
    .ref "parenthesized", .ref "template", .ref "array", .ref "object",
    .ref "function_expression", .ref "class_expression",
    .node "this" (w "this"), .node "super" (w "super"), .node "true" (w "true"),
    .node "false" (w "false"), .node "null" (w "null"), .node "undefined" (w "undefined"),
    .node "meta_property" (all [w "import", m ".", w "meta"]),
    .seq (.node "import" (w "import")) (.ahead (m "(")),
    .term .number, .term .string, .term .regex] ++
    (if dialect = .tags then [.ref "tag"] else []) ++ [name])),
  ("parenthesized", .node "parenthesized_expression" (all [m "(", .alt
    (.seq (.seq (.ref "expression") (opt (.role "type" (.ref "annotation")))) (.ahead (m ")")))
    (.ref "expressions"), m ")"])),
  ("template", .node "template_string" (all [.term .templateOpen,
    .star (any [.term .templateText, .term .templateEscape,
      .node "template_substitution" (all [.term .templateHole, .ref "expressions", m "\x7d"])]),
    .term .templateClose])),
  ("array", .node "array" (all [m "[", holed (.alt (.ref "spread") (.ref "expression")),
    m "]"])),
  ("object", .node "object" (all [m "\x7b", holed (any [
    .node "pair" (all [.role "key" (.ref "property_name"), m ":",
      .role "value" (.ref "expression")]),
    .ref "spread", .ref "method",
    .node "object_assignment_pattern" (all [
      .role "left" (.term (.name "shorthand_property_identifier_pattern")), m "=",
      .role "right" (.ref "expression")]),
    .term (.name "shorthand_property_identifier")]), m "\x7d"])),
  ("function_expression", .alt
    (.node "generator_function" (all [opt (w "async"), w "function", m "*",
      opt (.role "name" name), .ref "call_signature", .role "body" (.ref "block")]))
    (.node "function_expression" (all [opt (w "async"), w "function",
      opt (.role "name" name), .ref "call_signature", .role "body" (.ref "block")]))),
  ("class_expression", .node "class" (all [.ref "decorators", w "class",
    opt (.seq (.unless (.alt (w "extends") (w "implements"))) (.role "name" typeName)),
    .ref "class_rest"]))
]

/-- Tags. -/
def tags : List (String × R) := [
  ("tag", .alt (.node "jsx_self_closing_element" (.seq (.ref "tag_start") (raw "/>")))
    (.node "jsx_element" (all [
      .role "open_tag" (.node "jsx_opening_element" (.seq (.ref "tag_start") (raw ">"))),
      .star (any [.term .tagText, .term .characterReference, .ref "tag_hole", .ref "tag"]),
      .role "close_tag" (.node "jsx_closing_element" (all [raw "</",
        opt (.role "name" (.ref "tag_name")), raw ">"]))]))),
  ("tag_start", .seq (.seq (raw "<") (.unless (raw "/"))) (opt (all [
    .role "name" (.ref "tag_name"),
    opt (.role "type_arguments" (.ref "type_arguments")),
    .star (.role "attribute" (.ref "tag_attribute"))]))),
  ("tag_name", .alt
    (.node "jsx_namespace_name" (all [.term (.dashedName "identifier"), m ":",
      .term (.dashedName "identifier")]))
    (.grow (.term (.dashedName "identifier")) (.wrap "member_expression" (some "object")
      (.seq (m ".") (.role "property" propertyName))))),
  ("tag_attribute", .alt (.ref "tag_hole")
    (.node "jsx_attribute" (.seq
      (.alt (.node "jsx_namespace_name" (all [.term (.dashedName "property_identifier"), m ":",
          .term (.dashedName "property_identifier")]))
        (.term (.dashedName "property_identifier")))
      (opt (.seq (raw "=") (any [.term .attributeString, .ref "tag_hole", .ref "tag"])))))),
  ("tag_hole", .node "jsx_expression" (all [m "\x7b",
    opt (.alt (.ref "spread") (.ref "expressions")), m "\x7d"]))
]

/-- Types. -/
def types : List (String × R) := [
  ("annotation", .node "type_annotation" (.seq (m ":") (.ref "type"))),
  ("type", any [
    .ref "function_type",
    .node "constructor_type" (all [opt (w "abstract"), w "new",
      opt (.role "type_parameters" (.ref "type_parameters")),
      .role "parameters" (.ref "parameters"), m "=>", .role "type" (.ref "type")]),
    .node "readonly_type" (.seq (w "readonly") (.ref "type")),
    .node "conditional_type" (all [.role "left" (.ref "union_type"), sameLine, w "extends",
      .role "right" (.ref "union_type"), m "?", .role "consequence" (.ref "type"), m ":",
      .role "alternative" (.ref "type")]),
    .ref "union_type"]),
  ("function_type", .node "function_type" (all [
    opt (.role "type_parameters" (.ref "type_parameters")),
    .role "parameters" (.ref "parameters"), m "=>",
    .role "return_type" (any [.ref "asserts", .ref "type_predicate", .ref "type"])])),
  ("union_type", .grow
    (.alt (.node "union_type" (.seq (m "|") (.ref "intersection_type")))
      (.ref "intersection_type"))
    (.wrap "union_type" none (.seq (m "|")
      (any [.ref "function_type", .ref "intersection_type"])))),
  ("intersection_type", .grow
    (.alt (.node "intersection_type" (.seq (m "&") (.ref "operator_type")))
      (.ref "operator_type"))
    (.wrap "intersection_type" none (.seq (m "&")
      (any [.ref "function_type", .ref "operator_type"])))),
  ("operator_type", any [
    .node "index_type_query" (.seq (w "keyof") (.ref "operator_type")),
    .node "readonly_type" (.seq (w "readonly") (.ref "operator_type")),
    .node "infer_type" (all [w "infer", typeName,
      opt (all [w "extends", .ref "union_type", .unless (m "?")])]),
    .ref "postfix_type"]),
  ("postfix_type", .grow (.ref "primary_type") (any [
    .wrap "array_type" none (all [sameLine, m "[", m "]"]),
    .wrap "lookup_type" none (all [sameLine, m "[", .ref "type", m "]"])])),
  ("primary_type", any [
    .node "parenthesized_type" (all [m "(", .ref "type", m ")"]),
    .ref "object_type", .ref "tuple_type", .ref "type_query", .ref "literal_type",
    .ref "template_type",
    .node "this_type" (w "this"),
    .node "existential_type" (m "*"),
    .node "flow_maybe_type" (.seq (m "?") (.ref "postfix_type")),
    .ref "import_type",
    .seq (.ref "predefined_type") (.unless (m ".")),
    .seq (w "const") .empty,
    .ref "named_type"]),
  ("predefined_type", .node "predefined_type" (any ([
      .phrase "unique symbol" (.seq (w "unique") (w "symbol"))] ++
    (["any", "number", "boolean", "string", "symbol", "void", "unknown", "never",
      "object"].map w)))),
  ("import_type", .grow (.node "call_expression" (.seq
      (.role "function" (.node "import" (w "import")))
      (.role "arguments" (.ref "arguments"))))
    (.wrap "member_expression" (some "object") (.seq (m ".")
      (.role "property" propertyName)))),
  ("named_type", .alt
    (.node "generic_type" (.seq (.role "name" (.ref "type_path"))
      (.role "type_arguments" (.ref "type_arguments"))))
    (.ref "type_path")),
  ("type_path", .alt
    (.node "nested_type_identifier" (all [
      .role "module" (.grow name (.wrap "nested_identifier" (some "object")
        (all [m ".", .role "property" propertyName, .ahead (m ".")]))),
      m ".", .role "name" (.term (.anyName "type_identifier"))]))
    typeName),
  ("type_query", .node "type_query" (.seq (w "typeof") (.grow
    (any [.node "this" (w "this"), .seq (.node "import" (w "import")) (.ahead (m "(")), name])
    (any [
      .wrap "member_expression" (some "object") (.seq (.alt (m ".") (m "?."))
        (.role "property" (.alt (.term .privateName) propertyName))),
      .wrap "call_expression" (some "function") (.seq sameLine
        (.role "arguments" (.ref "arguments"))),
      .wrap "subscript_expression" (some "object") (all [sameLine, m "[",
        .role "index" (.alt (.term .number) (.term .string)), m "]"]),
      .wrap "instantiation_expression" (some "function")
        (.role "type_arguments" (.ref "type_arguments"))])))),
  ("literal_type", .node "literal_type" (any [
    .node "unary_expression" (.seq (.role "operator" (.alt (m "-") (m "+")))
      (.role "argument" (.term .number))),
    .term .number, .term .string, .node "true" (w "true"), .node "false" (w "false"),
    .node "null" (w "null"), .node "undefined" (w "undefined")])),
  ("template_type", .node "template_literal_type" (all [.term .templateOpen,
    .star (any [.term .templateText, .term .templateEscape,
      .node "template_type" (all [.term .templateHole, .ref "type", m "\x7d"])]),
    .term .templateClose])),
  ("tuple_type", .node "tuple_type" (all [m "[", opt (commas (.ref "tuple_member")), opt comma,
    m "]"])),
  ("tuple_member", any [
    .node "required_parameter" (.seq
      (.role "name" (.alt (.node "rest_pattern" (.seq (m "...") name)) name))
      (.role "type" (.ref "annotation"))),
    .node "optional_parameter" (all [.role "name" name, m "?", .role "type" (.ref "annotation")]),
    .node "rest_type" (.seq (m "...") (.ref "type")),
    .node "optional_type" (.seq (.ref "type") (m "?")),
    .ref "type"]),
  ("type_arguments", .node "type_arguments" (all [raw "<", commas (.ref "type"), opt comma,
    raw ">"])),
  ("type_parameters", .node "type_parameters" (all [raw "<", commas (.ref "type_parameter"),
    opt comma, raw ">"])),
  ("type_parameter", .node "type_parameter" (all [opt (w "const"), .role "name" typeName,
    opt (.role "constraint" (.node "constraint" (.seq (.alt (w "extends") (m ":"))
      (.ref "type")))),
    opt (.role "value" (.node "default_type" (.seq (m "=") (.ref "type"))))])),
  ("object_type", .node "object_type" (.ref "members")),
  ("members", all [m "\x7b", opt (.alt comma (m ";")),
    .star (.seq (.ref "type_member") (any [comma, semiType, .ahead (m "\x7d")])), m "\x7d"]),
  ("type_member", any [
    .ref "call_signature_member", .ref "construct_signature", .ref "index_signature",
    .ref "method_signature", .ref "property_signature", .ref "export"]),
  ("call_signature_member", .node "call_signature" (.ref "call_signature")),
  ("construct_signature", .node "construct_signature" (all [perhaps "abstract", w "new",
    opt (.role "type_parameters" (.ref "type_parameters")),
    .role "parameters" (.ref "parameters"), opt (.role "type" (.ref "annotation"))])),
  ("index_signature", .node "index_signature" (all [
    opt (.seq (opt (.role "sign" (.alt (m "+") (m "-")))) (w "readonly")), m "[",
    .alt (.node "mapped_type_clause" (all [.role "name" typeName, w "in",
        .role "type" (.ref "type"),
        opt (.seq (w "as") (.role "alias" (.ref "type")))]))
      (all [.role "name" name, m ":", .role "index_type" (.ref "type")]),
    m "]",
    .role "type" (any [
      .node "omitting_type_annotation" (.seq (raw "-?:") (.ref "type")),
      .node "adding_type_annotation" (.seq (raw "+?:") (.ref "type")),
      .node "opting_type_annotation" (.seq (raw "?:") (.ref "type")),
      .ref "annotation"])])),
  ("property_signature", .node "property_signature" (all [opt (.ref "accessibility"),
    perhaps "static", opt (.ref "override"), perhaps "readonly",
    .role "name" (.ref "property_name"), opt (m "?"), opt (.role "type" (.ref "annotation"))]))
]

end Rules

/-- The grammar of a dialect. -/
def grammar (dialect : Dialect) : Grammar Terminal :=
  .ofList (Rules.statements ++ Rules.declarations ++ Rules.members ++ Rules.patterns ++
    Rules.expressions dialect ++ Rules.tags ++ Rules.types)

/-- The syntax tree of a source, and whether every part of it was understood; if not, the tree
ends before the first statement that was not. -/
def parse (dialect : Dialect) (t : SourceText) : Node × Bool :=
  let fuel := 400 * (t.size + 8)
  let readAll (name : String) : Reading :=
    ((grammar dialect).read (scanner t) fuel (.ref name) [] 0 {}).1
  let (pieces, ok) : List Piece × Bool := match readAll "program" with
    | some (ps, _) => (ps, true)
    | none => ((readAll "statements").elim [] fun (ps, _) => ps, false)
  let nodes := Piece.nodes pieces
  let start := (nodes.head?.map (·.span.start)).getD t.size
  ({ kind := "program", named := true, role := none, span := t.span start t.size,
     children := nodes }, ok)

end SourceFacts.Syntax.TypeScript
