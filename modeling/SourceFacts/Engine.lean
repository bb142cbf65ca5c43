import SourceFacts.CallOrder
import SourceFacts.Catalog
import SourceFacts.Config
import SourceFacts.DataModel
import SourceFacts.Detection.Json
import SourceFacts.Detector
import SourceFacts.Outline.Extract
import SourceFacts.Outline.Json
import SourceFacts.PackageManager

/-!
# Analysing files

An engine holds what a configuration asks for: templates, queries for data models, a catalog
and rules for package managers. It tells the facts of one file at a time. A file that cannot be
analysed does not keep others from being analysed; the only thing that files share is the cache
of compiled queries.
-/

namespace SourceFacts

/-- All that is found out about a file. Functions and methods stand in call order. -/
structure FileFacts where
  path : String
  language : Language
  context : SourceContext
  detections : List Detection
  dataModels : ModelDetection
  outline : Outline
deriving Repr, BEq, DecidableEq, Inhabited

/-- The facts of a file as they are written down. -/
def FileFacts.toJson (f : FileFacts) : Json :=
  .object [("path", .string f.path), ("language", .string f.language.name),
    ("imports", .strings f.context.imports),
    ("import_aliases", f.context.aliases.toJson),
    ("bindings", .list (f.context.bindings.map ModuleBinding.toJson)),
    ("detections", .list (f.detections.map Detection.toJson)),
    ("data_models", f.dataModels.toJson), ("signature", f.outline.toJson)]

/-- The outline with functions and the methods of each class in call order. -/
def Outline.inCallOrder (o : Outline) : Outline :=
  { functions := CallOrder.sort .functions o.functions
    classes := o.classes.map fun c => { c with methods := CallOrder.sort .methods c.methods } }

/-- What a configuration asks for. -/
structure Engine where
  /-- The templates of Python, or why Python cannot be analysed. -/
  pythonTemplates : Except ConfigError TemplateSet
  /-- The templates of TypeScript, or why TypeScript cannot be analysed. -/
  typescriptTemplates : Except ConfigError TemplateSet
  /-- The query for data models in each language. -/
  modelQueries : List (Language × QuerySource)
  catalog : Catalog
  rules : RuleTable

namespace Engine

/-- The templates that a configuration asks for. -/
def templatesOf (fs : FileSystem) (c : Config) (family : Family) :
    Except ConfigError TemplateSet :=
  match c.queriesDirectory with
  | some d => TemplateSet.load fs d family.name
  | none => .ok (TemplateSet.builtin family)

/-- The catalog that a configuration asks for; refused entries are left out. -/
def catalogOf (fs : FileSystem) (c : Config) : Except ConfigError Catalog :=
  let base := if c.includeBuiltinCatalog then (Catalog.empty.merge Catalog.builtin).catalog
    else Catalog.empty
  match c.catalogDirectory with
  | none => .ok base
  | some d => do return (base.merge (← Catalog.loadDirectory fs d)).catalog

/-- The rules that a configuration asks for. -/
def rulesOf (fs : FileSystem) (c : Config) : Except ConfigError RuleTable :=
  match c.managerRules with
  | some path => RuleTable.load fs path
  | none => RuleTable.builtin

/-- The engine that a configuration asks for. What is wrong with templates does not show until a
file is analysed. -/
def ofConfig (fs : FileSystem) (c : Config) : Except ConfigError Engine := do
  let catalog ← catalogOf fs c
  let rules ← rulesOf fs c
  return {
    pythonTemplates := templatesOf fs c .python
    typescriptTemplates := templatesOf fs c .typescript
    modelQueries := Language.all.map fun l =>
      (l, DataModel.querySource fs l c.queriesDirectory)
    catalog, rules }

/-- The templates of a family. -/
def templates (e : Engine) : Family → Except ConfigError TemplateSet
  | .python => e.pythonTemplates
  | .typescript => e.typescriptTemplates

/-- The data models of a source; where their query cannot be had, there are none. -/
def dataModels (e : Engine) (fs : FileSystem) (p : ParsedSource) (o : Outline)
    (c : QueryCache) : ModelDetection × QueryCache :=
  match e.modelQueries.find? (·.1 == p.language) with
  | none => (.none, c)
  | some (_, source) =>
    match DataModel.detect fs source p o c with
    | (.ok d, c) => (d, c)
    | (.error _, c) => (.none, c)

/-- The text of a source. Binary content is refused, and so is what is not UTF-8. -/
def textOf (path : String) (content : ByteArray) : Except EngineError String :=
  if content.data.contains 0 then .error (.parse path "binary content")
  else
    match Text.Utf8.decode content with
    | .ok text => .ok text
    | .error fault => .error (.parse path ("not valid UTF-8: " ++ fault.message))

/-- The facts of a text. -/
def factsOfText (e : Engine) (fs : FileSystem) (templates : TemplateSet) (path : String)
    (l : Language) (text : String) (c : QueryCache) :
    Except EngineError FileFacts × QueryCache :=
  let p := ParsedSource.ofText l text
  match Outline.extract fs l p.text p.root c with
  | (.error fault, c) => (.error (.config fault), c)
  | (.ok outline, c) =>
    let (detections, c) := Detector.detect p templates (e.catalog.features l) c
    let (dataModels, c) := e.dataModels fs p outline c
    let facts : FileFacts :=
      { path, language := l, context := p.context, detections, dataModels
        outline := outline.inCallOrder }
    (.ok facts, c)

/-- The facts of a source that is given as it would stand in a file. -/
def analyzeSource (e : Engine) (fs : FileSystem) (path : String) (l : Language)
    (content : ByteArray) (c : QueryCache) : Except EngineError FileFacts × QueryCache :=
  match textOf path content with
  | .error fault => (.error fault, c)
  | .ok text =>
    match e.templates l.family with
    | .error fault => (.error (.config fault), c)
    | .ok templates => e.factsOfText fs templates path l text c

/-- The content of a file that is to be analysed. -/
def contentOf (fs : FileSystem) (path : String) : Except EngineError ByteArray :=
  match fs.read path with
  | .ok content => .ok content
  | .error .isDirectory => .error (.io FileFault.noDevice.message)
  | .error fault => .error (.io fault.message)

/-- The facts of a file, whose name tells its language. -/
def analyzeFile (e : Engine) (fs : FileSystem) (path : String) (c : QueryCache) :
    Except EngineError FileFacts × QueryCache :=
  match (Path.extension? path).bind Language.ofExtension? with
  | none => (.error (.config (.unsupportedLanguage path)), c)
  | some l =>
    match contentOf fs path with
    | .error fault => (.error fault, c)
    | .ok content => e.analyzeSource fs path l content c

/-- The facts of files, one result for each path. -/
def analyzeFiles (e : Engine) (fs : FileSystem) :
    List String → QueryCache → List (String × Except EngineError FileFacts) × QueryCache
  | [], c => ([], c)
  | path :: rest, c =>
    let (result, c) := e.analyzeFile fs path c
    let (results, c) := e.analyzeFiles fs rest c
    ((path, result) :: results, c)

end Engine

end SourceFacts
