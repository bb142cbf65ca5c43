import SourceFacts.Outline
import SourceFacts.Query.Search
import SourceFacts.QueryCache
import SourceFacts.SourceContext

/-!
# Data models

Finds the record-like types that a file declares. In Python, classes are recognised by their
decorators and base classes, and by those of the classes they inherit from; where that finds
nothing, and in other languages, a query is asked.
-/

namespace SourceFacts

/-- The lines of data models by name. Models on a single line are left out, and the first model
of a name counts. -/
structure ModelPositions where
  table : Table (Nat × Nat)
deriving Repr, BEq, DecidableEq, Inhabited

namespace ModelPositions

/-- No models. -/
def empty : ModelPositions := ⟨.empty⟩

/-- Notes a model, given its lines in either order. -/
def insert (p : ModelPositions) (name : String) (a b : Nat) : ModelPositions :=
  if a = b || p.table.has name then p else ⟨p.table.set name (min a b, max a b)⟩

/-- The positions of a list of models. -/
def ofList (models : List (String × Nat × Nat)) : ModelPositions :=
  models.foldl (fun p (name, a, b) => p.insert name a b) empty

/-- The lines of a model. -/
def get? (p : ModelPositions) (name : String) : Option (Nat × Nat) := p.table.get? name

/-- How many models there are. -/
def size (p : ModelPositions) : Nat := p.table.size

end ModelPositions

/-- Whether a file declares data models, and where. -/
structure ModelDetection where
  found : Bool
  positions : ModelPositions
deriving Repr, BEq, DecidableEq, Inhabited

/-- Nothing was found. -/
def ModelDetection.none : ModelDetection := ⟨false, .empty⟩

namespace DataModel

/-- A model with its lines. -/
abbrev Model := String × Nat × Nat

/-! ## By the outline -/

/-- The base classes that make a class a model. -/
def modelBases : List String :=
  ["pydantic.BaseModel", "pydantic.main.BaseModel", "sqlmodel.SQLModel", "typing.TypedDict",
   "typing.NamedTuple", "typing_extensions.TypedDict", "typing_extensions.NamedTuple",
   "msgspec.Struct", "marshmallow.Schema"]

/-- The decorators that make a class a model. -/
def modelDecorators : List String :=
  ["dataclasses.dataclass", "pydantic.dataclasses.dataclass", "attrs.define", "attrs.frozen",
   "attr.s", "attr.attrs", "attr.dataclass", "attr.define"]

/-- Whether a decorator, arguments aside, makes a model. -/
def isModelDecorator (m : ImportAliases) (decorator : String) : Bool :=
  (m.resolve? (Text.trimmed (Text.before '(' decorator))).any modelDecorators.contains

/-- Whether a base class, subscripts aside, makes a model. -/
def isModelBase (m : ImportAliases) (base : String) : Bool :=
  (m.resolve? (Text.trimmed (Text.before '[' base))).any modelBases.contains

/-- Whether a class is a model by itself. -/
def isSeed (m : ImportAliases) (c : ClassOutline) : Bool :=
  c.decorators.any (isModelDecorator m) || c.bases.any (isModelBase m)

/-- Adds the classes that inherit from a model, in one pass. -/
def inheritors : List ClassOutline → (models : List String) → List String
  | [], models => models
  | c :: rest, models =>
    if !models.contains c.name && c.bases.any models.contains then
      inheritors rest (c.name :: models)
    else inheritors rest models

/-- Adds the classes that inherit from a model, until no more are found. -/
def closure (classes : List ClassOutline) : (fuel : Nat) → List String → List String
  | 0, models => models
  | fuel + 1, models =>
    let next := inheritors classes models
    if next.length = models.length then models else closure classes fuel next

/-- The names of the classes that are models. -/
def modelNames (m : ImportAliases) (o : Outline) : List String :=
  closure o.classes (o.classes.length + 1)
    (((o.classes.filter (isSeed m)).map (·.name)).eraseDups)

/-- The models in an outline. -/
def bySignature (m : ImportAliases) (o : Outline) : List Model :=
  let names := modelNames m o
  (o.classes.filter fun c => names.contains c.name).map fun c =>
    (c.name, c.startLine, c.endLine)

/-! ## By a query -/

/-- The query that comes with the library. -/
def builtinQuery : Family → String
  | .python => BuiltinQuery.pythonDataModel
  | .typescript => BuiltinQuery.typescriptDataModel

/-- The source of the query for a language: a file in the directory of queries, if there is
one. -/
def querySource (fs : FileSystem) (l : Language) (queriesDirectory : Option String) :
    QuerySource :=
  let embedded : QuerySource :=
    { name := "data_model", origin := .embedded (builtinQuery l.family), optional := false }
  match queriesDirectory with
  | none => embedded
  | some d =>
    let path := Path.join (Path.join d l.family.name) "data_model.scm"
    if fs.isFile path then { embedded with origin := .file path } else embedded

/-- The key under which the query for a language is kept. -/
def queryKey (l : Language) : String := l.name ++ ":data_model"

/-- The model that a match shows. -/
def modelOf? (t : Syntax.SourceText) (q : Query) (m : Query.Match) : Option Model := do
  let model ← m.place? (q.captureIndex? "model")
  let name ← m.place? (q.captureIndex? "model_name")
  return (t.textOf name.node, model.node.span.firstLine, model.node.span.lastLine)

/-- Keeps the first model of each name; `seen` are the names met before. -/
def firstOfName (seen : List String) : List Model → List Model
  | [] => []
  | m :: rest =>
    if seen.contains m.1 then firstOfName seen rest else m :: firstOfName (m.1 :: seen) rest

/-- The models that a query finds. -/
def byQuery (q : Query) (p : ParsedSource) : List Model :=
  firstOfName [] ((q.matchesOf p.text p.root).filterMap (modelOf? p.text q))

/-! ## Together -/

/-- What has been found, if anything. -/
def detectionOf (models : List Model) : ModelDetection :=
  if models.isEmpty then .none else ⟨true, .ofList models⟩

/-- The data models of a file, with the query out of the cache. The query is not asked where
the outline shows models. -/
def detect (fs : FileSystem) (source : QuerySource) (p : ParsedSource) (o : Outline)
    (c : QueryCache) : Except ConfigError ModelDetection × QueryCache :=
  let shown := if p.language = .python then bySignature p.context.aliases o else []
  if !shown.isEmpty then (.ok (detectionOf shown), c)
  else
    let (set, c) := c.querySet fs (queryKey p.language) p.language [source]
    (set.map fun set =>
      match set.get? "data_model" with
      | some q => detectionOf (byQuery q p)
      | none => .none, c)

end DataModel

/-- An object of pairs of lines, by name. -/
def ModelPositions.toJson (p : ModelPositions) : Json :=
  .object (p.table.entries.map fun (name, a, b) => (name, .list [.nat a, .nat b]))

/-- What was found, as it is written down. -/
def ModelDetection.toJson (d : ModelDetection) : Json :=
  .object [("found", .bool d.found), ("positions", d.positions.toJson)]

end SourceFacts
