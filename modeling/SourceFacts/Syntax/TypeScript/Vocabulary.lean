import SourceFacts.Syntax.TypeScript.Grammar
import SourceFacts.Syntax.Vocabulary

/-!
# The words of the TypeScript grammar
-/

namespace SourceFacts.Syntax.TypeScript

/-- The kinds of node that a terminal brings. -/
def Terminal.kinds : Terminal → List (String × Bool)
  | .mark m | .raw m => [(m, false)]
  | .word w => [(w, false)]
  | .name kind | .anyName kind | .dashedName kind => [(kind, true)]
  | .privateName => [("private_property_identifier", true)]
  | .number => [("number", true)]
  | .string | .attributeString => [("string", true)]
  | .regex => [("regex", true)]
  | .hashBang => [("hash_bang_line", true)]
  | .templateOpen | .templateClose => [("\x60", false)]
  | .templateText => [("string_fragment", true)]
  | .templateEscape => [("escape_sequence", true)]
  | .templateHole => [("$\x7b", false)]
  | .tagText => [("jsx_text", true)]
  | .characterReference => [("html_character_reference", true)]
  | .lineEnd _ | .sameLine | .finish => []

/-- What the whole tree, texts and regular expressions consist of, as rules. -/
def outerRules : List (String × Rule Terminal) := [
  ("", .node "program" (.ref "program")),
  ("", .node "string" (.any [.term (.mark "\""), .term (.mark "\x27"), .term .templateText,
    .term .templateEscape])),
  ("", .node "regex" (.any [.term (.mark "/"), .role "pattern" (.node "regex_pattern" .empty),
    .role "flags" (.node "regex_flags" .empty)]))]

/-- Kinds of node that may stand anywhere. -/
def extras : List String := ["comment", "html_comment"]

/-- Kinds that stand where a tight expression may. -/
def primaryKinds : List String :=
  ["subscript_expression", "member_expression", "parenthesized_expression", "identifier",
   "undefined", "this", "super", "number", "string", "template_string", "regex", "true", "false",
   "null", "object", "array", "function_expression", "arrow_function", "generator_function",
   "class", "meta_property", "call_expression", "non_null_expression"]

/-- Kinds that stand where a tight type may. -/
def primaryTypeKinds : List String :=
  ["parenthesized_type", "predefined_type", "type_identifier", "nested_type_identifier",
   "generic_type", "object_type", "array_type", "tuple_type", "flow_maybe_type", "type_query",
   "index_type_query", "this_type", "existential_type", "literal_type", "lookup_type",
   "conditional_type", "template_literal_type", "intersection_type", "union_type", "const"]

/-- Kinds that declare. -/
def declarationKinds : List String :=
  ["function_declaration", "generator_function_declaration", "class_declaration",
   "lexical_declaration", "variable_declaration", "function_signature",
   "abstract_class_declaration", "module", "internal_module", "type_alias_declaration",
   "enum_declaration", "interface_declaration", "import_alias", "ambient_declaration"]

/-- Kinds that go together under one name. -/
def families : List (String × List String) := [
  ("primary_expression", primaryKinds),
  ("expression", primaryKinds ++ ["as_expression", "satisfies_expression",
    "instantiation_expression", "internal_module", "type_assertion", "glimmer_template",
    "assignment_expression", "augmented_assignment_expression", "await_expression",
    "unary_expression", "binary_expression", "ternary_expression", "update_expression",
    "new_expression", "yield_expression", "jsx_element", "jsx_self_closing_element"]),
  ("pattern", ["member_expression", "subscript_expression", "identifier", "undefined",
    "object_pattern", "array_pattern", "non_null_expression", "rest_pattern"]),
  ("primary_type", primaryTypeKinds),
  ("type", primaryTypeKinds ++ ["function_type", "readonly_type", "constructor_type",
    "infer_type", "type_query", "member_expression", "call_expression"]),
  ("declaration", declarationKinds),
  ("statement", declarationKinds ++ ["export_statement", "import_statement",
    "debugger_statement", "expression_statement", "statement_block", "if_statement",
    "switch_statement", "for_statement", "for_in_statement", "while_statement", "do_statement",
    "try_statement", "with_statement", "break_statement", "continue_statement",
    "return_statement", "throw_statement", "empty_statement", "labeled_statement"])]

/-- The vocabulary of a dialect. -/
def vocabulary (dialect : Dialect) : Vocabulary :=
  .ofRules (outerRules ++ Rules.statements ++ Rules.declarations ++ Rules.members ++ Rules.patterns ++
      Rules.expressions dialect ++ Rules.tags ++ Rules.types)
    Terminal.kinds extras families

end SourceFacts.Syntax.TypeScript
