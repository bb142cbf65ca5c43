import SourceFacts.Imports
import SourceFacts.Syntax.SourceText

/-!
# Imports and bindings in TypeScript
-/

namespace SourceFacts.TypeScript

open Syntax (Node SourceText)

/-- Drops quotes of the given sorts at both ends. -/
def unquoted (quotes : List Char) (s : String) : String :=
  let front := s.toList.dropWhile quotes.contains
  String.ofList (front.reverse.dropWhile quotes.contains).reverse

/-- The binding of an imported name. -/
def specifierBinding? (t : SourceText) (module : String) (n : Node) : Option ImportBinding :=
  (n.child? "name").map fun name =>
    let name := unquoted ['"', '\x27'] (t.textOf name)
    ⟨module ++ "." ++ name, some (((n.child? "alias").map t.textOf).getD name)⟩

/-- The bindings of a part of an import clause. -/
def partBindings (t : SourceText) (module : String) (n : Node) : List ImportBinding :=
  match n.kind with
  | "identifier" => [⟨module, some (t.textOf n)⟩]
  | "namespace_import" =>
    ((n.namedChildren.find? (·.kind == "identifier")).map fun i =>
      (⟨module, some (t.textOf i)⟩ : ImportBinding)).toList
  | "named_imports" =>
    (n.namedChildren.filter (·.kind == "import_specifier")).filterMap (specifierBinding? t module)
  | _ => []

/-- The bindings of an import statement; nothing for other nodes. -/
def importOf? (t : SourceText) (n : Node) : Option (List ImportBinding) :=
  if n.kind == "import_statement" then
    (n.child? "source").map fun source =>
      let module := unquoted ['"', '\x27', '\x60'] (t.textOf source)
      match n.namedChildren.find? (·.kind == "import_clause") with
      | none => [⟨module, none⟩]
      | some clause => clause.namedChildren.flatMap (partBindings t module)
  else none

/-- What is called or constructed by a node, behind any awaiting. -/
def calleeOf? (t : SourceText) : (depth : Nat) → Node → Option String
  | 0, _ => none
  | depth + 1, n =>
    match n.kind with
    | "call_expression" => (n.child? "function").map t.textOf
    | "new_expression" => (n.child? "constructor").map t.textOf
    | "await_expression" => n.namedChildren.head?.bind (calleeOf? t depth)
    | _ => none

/-- The name and callee of a declarator that binds the result of a call to a name. -/
def bindingOf? (t : SourceText) (declarator : Node) : Option (String × String × Nat) := do
  let name ← declarator.child? "name"
  let value ← declarator.child? "value"
  if name.kind != "identifier" then none
  else
    let callee ← calleeOf? t value.size value
    return (t.textOf name, callee, declarator.span.firstLine)

/-- Whether a node declares variables. -/
def declaresVariables (n : Node) : Bool :=
  n.kind == "lexical_declaration" || n.kind == "variable_declaration"

/-- The declaration of variables that a statement makes, exported or not. -/
def declarationOf? (statement : Node) : Option Node :=
  if declaresVariables statement then some statement
  else if statement.kind == "export_statement" then
    (statement.child? "declaration").filter declaresVariables
  else none

/-- The names that statements of a module bind to the results of calls. -/
def bindings (t : SourceText) (root : Node) : List (String × String × Nat) :=
  (root.namedChildren.filterMap declarationOf?).flatMap fun d =>
    (d.namedChildren.filter (·.kind == "variable_declarator")).filterMap (bindingOf? t)

end SourceFacts.TypeScript
