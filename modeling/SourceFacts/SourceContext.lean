import SourceFacts.Imports.Python
import SourceFacts.Imports.TypeScript
import SourceFacts.Json.Value
import SourceFacts.Syntax.Languages
import SourceFacts.Syntax.Traversal

/-!
# Source contexts

What the module level of a file says about its names: what is imported, under which names, and
which variables hold the results of calls.
-/

namespace SourceFacts

open Syntax (Node SourceText Traversal)

/-- A variable of a module that holds the result of a call. -/
structure ModuleBinding where
  name : String
  /-- What is called. -/
  callee : String
  line : Nat
deriving Repr, BEq, DecidableEq, Inhabited

/-- The context of a file. -/
structure SourceContext where
  language : Language
  /-- Imported paths in source order, each once. -/
  imports : List String
  aliases : ImportAliases
  bindings : List ModuleBinding
deriving Repr, BEq, DecidableEq, Inhabited

/-- A source with its syntax tree and its context. -/
structure ParsedSource where
  language : Language
  text : SourceText
  root : Node
  context : SourceContext
deriving Inhabited

namespace Imports

/-- The walk that records the imports of a tree. Nothing is looked for inside an import. -/
def walk {σ : Type} (importOf? : Node → Option (List ImportBinding))
    (record : σ → ImportBinding → σ) : Traversal σ where
  visit s n :=
    match importOf? n with
    | some found => found.foldl record s
    | none => s
  enters n _ := (importOf? n).isNone

end Imports

namespace SourceContext

/-- The context of a tree. -/
def ofTree (l : Language) (t : SourceText) (root : Node) : SourceContext :=
  let (importOf?, bindings) :=
    match l.family with
    | .python => (Python.importOf? t, Python.bindings t root)
    | .typescript => (TypeScript.importOf? t, TypeScript.bindings t root)
  let recorded := (Imports.walk importOf? Imports.Recorded.add).through root .empty
  { language := l
    imports := recorded.paths
    aliases := recorded.aliases
    bindings := bindings.map fun (name, callee, line) => ⟨name, callee, line⟩ }

/-- Imported paths with the modules that contain them. -/
def expandedImports (c : SourceContext) : List String := Imports.expand c.imports

/-- Module variables that hold the result of calling one of the given references, each once. -/
def boundVariables (c : SourceContext) (references : List String) : List String :=
  ((c.bindings.filter fun b => references.contains b.callee).map (·.name)).eraseDups

end SourceContext

/-- A source text with its tree and context. -/
def ParsedSource.ofText (l : Language) (source : String) : ParsedSource :=
  let t := SourceText.ofString source
  let root := (l.parse t).1
  { language := l, text := t, root, context := .ofTree l t root }

namespace ImportAliases

/-- An object in order of binding. -/
def toJson (m : ImportAliases) : Json :=
  .object (m.entries.map fun (path, localName) => (path, .string localName))

end ImportAliases

/-- The fields of a binding. -/
def ModuleBinding.toJson (b : ModuleBinding) : Json :=
  .object [("name", .string b.name), ("callee", .string b.callee), ("line", .nat b.line)]

end SourceFacts
