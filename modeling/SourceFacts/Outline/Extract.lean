import SourceFacts.Outline
import SourceFacts.Query.Search
import SourceFacts.QueryCache
import SourceFacts.Syntax.Traversal

/-!
# Outlines of Python files

Classes and functions are found by a query. A definition belongs to the class or function that
encloses it most closely: classes and functions inside functions are left out, functions inside
classes are methods. Other languages have no outline.
-/

namespace SourceFacts.Outline

open Syntax (Node Place SourceText Traversal)

/-- What a definition belongs to. -/
inductive Enclosure where
  | module
  | type (p : Place)
  | function

/-- The class or function that encloses a way most closely. -/
def enclosureOf : List (Node × Nat) → Enclosure
  | [] => .module
  | (n, _) :: above =>
    if n.kind == "class_definition" then .type ⟨n, above⟩
    else if n.kind == "function_definition" then .function
    else enclosureOf above

/-- Drops white space and at signs in front, and white space at the end. -/
def decoratorText (s : String) : String :=
  let s := Text.trim s.toList
  String.ofList (Text.trim (s.dropWhile (· == '@')))

/-- The node of a definition with its decorators, and their texts. -/
def decorated (t : SourceText) (p : Place) : Node × List String :=
  match p.above with
  | (n, _) :: _ =>
    if n.kind == "decorated_definition" then
      (n, (n.namedChildren.filter (·.kind == "decorator")).map fun d =>
        decoratorText (t.textOf d))
    else (p.node, [])
  | [] => (p.node, [])

/-- The base classes among the arguments of a class. -/
def baseNames (t : SourceText) (arguments : Node) : List String :=
  (arguments.namedChildren.filter fun n =>
    n.kind == "identifier" || n.kind == "attribute" || n.kind == "subscript").map t.textOf

/-- The call that a call node makes, if what it calls is a name or a member. -/
def callRef? (t : SourceText) (n : Node) : Option CallRef := do
  let function ← n.child? "function"
  let line := n.span.firstLine
  match function.kind with
  | "identifier" => return ⟨none, t.textOf function, line⟩
  | "attribute" =>
    let object ← function.child? "object"
    let name ← function.child? "attribute"
    return ⟨some (t.textOf object), t.textOf name, line⟩
  | _ => none

/-- Whether a node is a definition with a scope of its own. -/
def isDefinition (n : Node) : Bool :=
  n.kind == "function_definition" || n.kind == "class_definition"

/-- The walk that collects calls. Definitions are not entered. -/
def callWalk (t : SourceText) : Traversal (List CallRef) where
  visit calls n :=
    if n.kind == "call" then
      match callRef? t n with
      | some call => calls ++ [call]
      | none => calls
    else calls
  enters _ n := !isDefinition n

/-- The calls in the body of a function, without those of inner definitions. -/
def collectCalls (t : SourceText) (body : Node) : List CallRef := (callWalk t).through body []

/-- The outline of a function whose name is given. -/
def functionOf (t : SourceText) (p : Place) (name : String) : FunctionOutline :=
  let (outer, decorators) := decorated t p
  { name, qualifiedName := name, parentClass := none, decorators
    calls := ((p.node.child? "body").map (collectCalls t)).getD []
    isAsync := p.node.children.any (·.kind == "async")
    startLine := outer.span.firstLine, endLine := outer.span.lastLine }

/-- The outline of a class, without its methods. -/
def classOf (t : SourceText) (p : Place) (name : String) (bases : Option Place) : ClassOutline :=
  let (outer, decorators) := decorated t p
  { name, bases := (bases.map fun b => baseNames t b.node).getD [], decorators
    startLine := outer.span.firstLine, endLine := outer.span.lastLine, methods := [] }

/-- A definition that belongs into an outline. -/
inductive Item where
  /-- A class, with the way to it. -/
  | type (way : List Nat) (c : ClassOutline)
  /-- A method, with the way to its class. -/
  | method (classWay : List Nat) (f : FunctionOutline)
  | function (f : FunctionOutline)

/-- What a match of the query contributes. -/
def itemOf (t : SourceText) (q : Query) (m : Query.Match) : Option Item :=
  let captured (name : String) : Option Place := m.place? (q.captureIndex? name)
  match captured "class.def", captured "class.name" with
  | some d, some name =>
    match enclosureOf d.above with
    | .function => none
    | _ => some (.type d.way (classOf t d (t.textOf name.node) (captured "class.bases")))
  | _, _ =>
    match captured "fn.def", captured "fn.name" with
    | some d, some name =>
      let f := functionOf t d (t.textOf name.node)
      match enclosureOf d.above with
      | .module => some (.function f)
      | .function => none
      | .type c =>
        let className := ((c.node.child? "name").map t.textOf).getD ""
        some (.method c.way { f with
          qualifiedName := className ++ "." ++ f.name, parentClass := some className })
    | _, _ => none

/-- The outline that definitions make up, each method in its class. -/
def ofItems (items : List Item) : Outline :=
  let methodsOf (way : List Nat) : List FunctionOutline :=
    items.filterMap fun
      | .method w f => if w == way then some f else none
      | _ => none
  { classes := items.filterMap fun
      | .type way c => some { c with methods := methodsOf way }
      | _ => none
    functions := items.filterMap fun
      | .function f => some f
      | _ => none }

/-- The outline of a Python tree. -/
def ofPython (q : Query) (t : SourceText) (root : Node) : Outline :=
  ofItems ((q.matchesOf t root).filterMap (itemOf t q))

/-- The key under which the query is kept. -/
def queryKey : String := "python:outline"

/-- The source of the query. -/
def querySource : QuerySource :=
  { name := "outline", origin := .embedded BuiltinQuery.pythonOutline, optional := false }

/-- The outline of a tree, with its query out of the cache. -/
def extract (fs : FileSystem) (l : Language) (t : SourceText) (root : Node) (c : QueryCache) :
    Except ConfigError Outline × QueryCache :=
  match l with
  | .python =>
    let (found, c) := c.querySet fs queryKey .python [querySource]
    (found.map fun set =>
      match set.get? "outline" with
      | some q => ofPython q t root
      | none => .empty, c)
  | .typescript | .tsx => (.ok .empty, c)

end SourceFacts.Outline
