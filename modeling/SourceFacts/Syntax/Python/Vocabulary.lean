import SourceFacts.Syntax.Python.Grammar
import SourceFacts.Syntax.Vocabulary

/-!
# The words of the Python grammar
-/

namespace SourceFacts.Syntax.Python

/-- The kinds of node that a terminal brings. -/
def Terminal.kinds : Terminal → List (String × Bool)
  | .word w => [(w, false)]
  | .mark m => [(m, false)]
  | .name => [("identifier", true)]
  | .one .integer => [("integer", true)]
  | .one .float => [("float", true)]
  | .one .stringStart => [("string_start", true)]
  | .one .stringContent => [("string_content", true)]
  | .one .stringEnd => [("string_end", true)]
  | .one .conversion => [("type_conversion", true)]
  | .one _ => []

/-- What the whole tree and texts consist of, as rules. -/
def outerRules : List (String × Rule Terminal) := [
  ("", .node "module" (.ref "module")),
  ("", .node "string_content"
    (.alt (.node "escape_sequence" .empty) (.node "escape_interpolation" .empty)))]

/-- Kinds of node that may stand anywhere. -/
def extras : List String := ["comment", "line_continuation"]

/-- Kinds that stand where an expression may. -/
def primaryKinds : List String :=
  ["await", "binary_operator", "identifier", "string", "concatenated_string", "integer", "float",
   "true", "false", "none", "unary_operator", "attribute", "subscript", "call", "list",
   "list_comprehension", "dictionary", "dictionary_comprehension", "set", "set_comprehension",
   "tuple", "parenthesized_expression", "generator_expression", "ellipsis", "list_splat"]

/-- Kinds that go together under one name. -/
def families : List (String × List String) := [
  ("primary_expression", primaryKinds),
  ("expression", primaryKinds ++ ["comparison_operator", "not_operator", "boolean_operator",
    "lambda", "conditional_expression", "named_expression", "as_pattern"]),
  ("pattern", ["identifier", "subscript", "attribute", "list_splat_pattern", "tuple_pattern",
    "list_pattern"]),
  ("parameter", ["identifier", "typed_parameter", "default_parameter",
    "typed_default_parameter", "list_splat_pattern", "tuple_pattern", "keyword_separator",
    "positional_separator", "dictionary_splat_pattern"]),
  ("_simple_statement", ["future_import_statement", "import_statement", "import_from_statement",
    "print_statement", "assert_statement", "expression_statement", "return_statement",
    "delete_statement", "raise_statement", "pass_statement", "break_statement",
    "continue_statement", "global_statement", "nonlocal_statement", "exec_statement",
    "type_alias_statement"]),
  ("_compound_statement", ["if_statement", "for_statement", "while_statement", "try_statement",
    "with_statement", "function_definition", "class_definition", "decorated_definition",
    "match_statement"])]

/-- The vocabulary of Python. -/
def vocabulary : Vocabulary :=
  .ofRules
    (outerRules ++ Rules.statements ++ Rules.casePatterns ++ Rules.signatures ++ Rules.expressions)
    Terminal.kinds extras families

end SourceFacts.Syntax.Python
