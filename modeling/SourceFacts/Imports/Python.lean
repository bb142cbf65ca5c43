import SourceFacts.Imports
import SourceFacts.Syntax.SourceText

/-!
# Imports and bindings in Python
-/

namespace SourceFacts.Python

open Syntax (Node SourceText)

/-- A module and a name in it as one path. A relative module may end in a dot. -/
def joinModule (module name : String) : String :=
  if module.toList.getLast? == some '.' then module ++ name else module ++ "." ++ name

/-- The bindings of an imported item; `full` makes a path of its name. -/
def itemBindings (t : SourceText) (full : String → String) (item : Node) : List ImportBinding :=
  match item.kind with
  | "dotted_name" => [⟨full (t.textOf item), some (t.textOf item)⟩]
  | "aliased_import" =>
    match item.child? "name", item.child? "alias" with
    | some name, some short => [⟨full (t.textOf name), some (t.textOf short)⟩]
    | _, _ => []
  | _ => []

/-- The bindings of an import statement; nothing for other nodes. -/
def importOf? (t : SourceText) (n : Node) : Option (List ImportBinding) :=
  match n.kind with
  | "import_statement" => some ((n.childrenIn "name").flatMap (itemBindings t id))
  | "import_from_statement" =>
    (n.child? "module_name").map fun m =>
      let module := t.textOf m
      (n.childrenIn "name").flatMap (itemBindings t (joinModule module)) ++
        if n.namedChildren.any (·.kind == "wildcard_import") then [⟨module, none⟩] else []
  | _ => none

/-- What is called, if a node is a call. -/
def calleeOf? (t : SourceText) (n : Node) : Option String :=
  if n.kind == "call" then (n.child? "function").map t.textOf else none

/-- The name and callee of a statement that binds the result of a call to a name. -/
def bindingOf? (t : SourceText) (statement : Node) : Option (String × String × Nat) := do
  if statement.kind != "expression_statement" then none
  else
    let assignment ← statement.namedChildren.head?
    if assignment.kind != "assignment" then none
    else
      let left ← assignment.child? "left"
      let right ← assignment.child? "right"
      if left.kind != "identifier" then none
      else
        let callee ← calleeOf? t right
        return (t.textOf left, callee, statement.span.firstLine)

/-- The names that statements of a module bind to the results of calls. -/
def bindings (t : SourceText) (root : Node) : List (String × String × Nat) :=
  root.namedChildren.filterMap (bindingOf? t)

end SourceFacts.Python
