/-!
# The queries that come with the library

The texts of the templates and queries that are used unless others are configured. In a
template, a name in double braces stands for a predicate that is filled in later.
-/

namespace SourceFacts.BuiltinQuery

/-- Lines, each of which is ended. -/
def lines (ls : List String) : String := String.join (ls.map (· ++ "\n"))

/-- Decorators of classes in Python. -/
def pythonDecoratorClass : String :=
  lines [
    "; Decorators applied to class definitions.",
    "(",
    "  (decorated_definition",
    "    (decorator",
    "      [",
    "        (identifier) @annotation_name",
    "        (attribute",
    "          object: (_) @bound_object",
    "          attribute: (identifier) @annotation_name)",
    "        (call",
    "          function: [",
    "            (identifier) @annotation_name",
    "            (attribute",
    "              object: (_) @bound_object",
    "              attribute: (identifier) @annotation_name)",
    "          ])",
    "      ]) @annotation",
    "    definition: (class_definition",
    "      name: (identifier) @target_name)) @target",
    "  \x7b\x7bannotation_name_predicate\x7d\x7d",
    ")"]

/-- Decorators of functions in Python. -/
def pythonDecoratorFunction : String :=
  lines [
    "; Decorators applied to function and method definitions.",
    "; @annotation spans the decorator; @bound_object is the receiver in \x60@router.get(...)\x60.",
    "(",
    "  (decorated_definition",
    "    (decorator",
    "      [",
    "        (identifier) @annotation_name",
    "        (attribute",
    "          object: (_) @bound_object",
    "          attribute: (identifier) @annotation_name)",
    "        (call",
    "          function: [",
    "            (identifier) @annotation_name",
    "            (attribute",
    "              object: (_) @bound_object",
    "              attribute: (identifier) @annotation_name)",
    "          ])",
    "      ]) @annotation",
    "    definition: (function_definition",
    "      name: (identifier) @target_name)) @target",
    "  \x7b\x7bannotation_name_predicate\x7d\x7d",
    ")"]

/-- Calls in Python. -/
def pythonCallExpression : String :=
  lines [
    "; Calls at any level. @callee is the full function expression, @method the attribute",
    "; name when the callee is \x60receiver.method\x60.",
    "(",
    "  (call",
    "    function: [",
    "      (identifier) @callee",
    "      (attribute",
    "        object: (_) @bound_object",
    "        attribute: (identifier) @method) @callee",
    "    ]",
    "    arguments: (_) @call_args) @target",
    "  \x7b\x7bcallee_predicate\x7d\x7d",
    "  \x7b\x7bmethod_predicate\x7d\x7d",
    ")"]

/-- Base classes in Python. -/
def pythonInheritance : String :=
  lines [
    "; One match per base class. \x60db.Model\x60 binds @bound_object to \x60db\x60.",
    "(",
    "  (class_definition",
    "    name: (identifier) @subclass",
    "    superclasses: (argument_list",
    "      [",
    "        (identifier) @superclass",
    "        (attribute",
    "          object: (_) @bound_object) @superclass",
    "      ])) @target",
    "  \x7b\x7bsuperclass_predicate\x7d\x7d",
    ")"]

/-- Data models in Python. -/
def pythonDataModel : String :=
  lines [
    "; Fallback data-model shapes for files whose imports could not be resolved.",
    "(class_definition",
    "  name: (identifier) @model_name",
    "  superclasses: (argument_list",
    "    [",
    "      (identifier)",
    "      (attribute)",
    "    ] @model_base)",
    "  (#match? @model_base \"(^|[.])(BaseModel|SQLModel|TypedDict|NamedTuple|Struct|Schema)$\")) @model",
    "",
    "(decorated_definition",
    "  (decorator",
    "    (_) @model_decorator)",
    "  definition: (class_definition",
    "    name: (identifier) @model_name) @model",
    "  (#match? @model_decorator \"^((dataclasses|pydantic[.]dataclasses)[.])?dataclass([(]|$)|^attrs?[.](s|define|frozen|dataclass)([(]|$)\"))"]

/-- Functions and classes in Python. -/
def pythonOutline : String :=
  lines [
    "(function_definition",
    "  name: (identifier) @fn.name) @fn.def",
    "",
    "(class_definition",
    "  name: (identifier) @class.name",
    "  superclasses: (argument_list)? @class.bases) @class.def"]

/-- Decorators of classes in TypeScript. -/
def typescriptDecoratorClass : String :=
  lines [
    "; Decorators. The decorated declaration is resolved from the decorator's parent, so this",
    "; template matches the decorator alone.",
    "(",
    "  (decorator",
    "    [",
    "      (identifier) @annotation_name",
    "      (member_expression",
    "        object: (_) @bound_object",
    "        property: (property_identifier) @annotation_name)",
    "      (call_expression",
    "        function: [",
    "          (identifier) @annotation_name",
    "          (member_expression",
    "            object: (_) @bound_object",
    "            property: (property_identifier) @annotation_name)",
    "        ])",
    "    ]) @annotation",
    "  \x7b\x7bannotation_name_predicate\x7d\x7d",
    ")"]

/-- Decorators of functions in TypeScript. -/
def typescriptDecoratorFunction : String :=
  lines [
    "; Decorators. The decorated member (method vs field) is resolved from the decorator's",
    "; position in the class body, so this template matches the decorator alone.",
    "(",
    "  (decorator",
    "    [",
    "      (identifier) @annotation_name",
    "      (member_expression",
    "        object: (_) @bound_object",
    "        property: (property_identifier) @annotation_name)",
    "      (call_expression",
    "        function: [",
    "          (identifier) @annotation_name",
    "          (member_expression",
    "            object: (_) @bound_object",
    "            property: (property_identifier) @annotation_name)",
    "        ])",
    "    ]) @annotation",
    "  \x7b\x7bannotation_name_predicate\x7d\x7d",
    ")"]

/-- Calls in TypeScript. -/
def typescriptCallExpression : String :=
  lines [
    "; Calls and constructor invocations (\x60new PrismaClient()\x60).",
    "(",
    "  [",
    "    (call_expression",
    "      function: [",
    "        (identifier) @callee",
    "        (member_expression",
    "          object: (_) @bound_object",
    "          property: (property_identifier) @method) @callee",
    "      ]",
    "      arguments: (_) @call_args)",
    "    (new_expression",
    "      constructor: [",
    "        (identifier) @callee",
    "        (member_expression",
    "          object: (_) @bound_object",
    "          property: (property_identifier) @method) @callee",
    "      ]",
    "      arguments: (_) @call_args)",
    "  ] @target",
    "  \x7b\x7bcallee_predicate\x7d\x7d",
    "  \x7b\x7bmethod_predicate\x7d\x7d",
    ")"]

/-- Base classes in TypeScript. -/
def typescriptInheritance : String :=
  lines [
    "; \x60class A extends B\x60, one match per extended expression.",
    "(",
    "  [",
    "    (class_declaration",
    "      name: (type_identifier) @subclass",
    "      (class_heritage",
    "        (extends_clause",
    "          value: [",
    "            (identifier) @superclass",
    "            (member_expression",
    "              object: (_) @bound_object) @superclass",
    "          ])))",
    "    (abstract_class_declaration",
    "      name: (type_identifier) @subclass",
    "      (class_heritage",
    "        (extends_clause",
    "          value: [",
    "            (identifier) @superclass",
    "            (member_expression",
    "              object: (_) @bound_object) @superclass",
    "          ])))",
    "  ] @target",
    "  \x7b\x7bsuperclass_predicate\x7d\x7d",
    ")"]

/-- Data models in TypeScript. -/
def typescriptDataModel : String :=
  lines [
    "(interface_declaration",
    "  name: (type_identifier) @model_name) @model",
    "",
    "(type_alias_declaration",
    "  name: (type_identifier) @model_name",
    "  value: (object_type)) @model"]

end SourceFacts.BuiltinQuery
