import SourceFacts.Feature
import SourceFacts.Json.Decode
import SourceFacts.Json.Reader

/-!
# Features as JSON
-/

namespace SourceFacts

open Json (Misfit asString asBool asNat32 asList asOption asTable asChoice asRecord)

/-- Reads a level. -/
def TargetLevel.ofJson : Json → Except Misfit TargetLevel :=
  asChoice [(["function"], .function), (["class"], .type)]

/-- A level as it is written down. -/
def TargetLevel.toJson (t : TargetLevel) : Json := .string t.name

/-- Reads a concept, under any of its names. -/
def Concept.ofJson : Json → Except Misfit Concept :=
  asChoice [(["annotation", "annotation-like", "decorator"], .decorator),
    (["call", "call-expression", "call_expression"], .call),
    (["inheritance"], .inheritance)]

/-- A concept as it is written down. -/
def Concept.toJson (c : Concept) : Json := .string c.name

/-- Reads a strategy, under any of its names. -/
def LocatorStrategy.ofJson : Json → Except Misfit LocatorStrategy :=
  asChoice [(["variable_bound", "variable-bound"], .variableBound), (["direct"], .direct)]

/-- A strategy as it is written down. -/
def LocatorStrategy.toJson (s : LocatorStrategy) : Json := .string s.name

/-- Reads the regular expressions of one language family. -/
def ConstructQuery.ofJson (j : Json) : Except Misfit ConstructQuery := do
  let r ← asRecord [["method", "attribute"], ["annotation_name"], ["callee"], ["superclass"]] j
  return {
    method := ← r.withDefault "method" none (asOption asString)
    decoratorName := ← r.withDefault "annotation_name" none (asOption asString)
    callee := ← r.withDefault "callee" none (asOption asString)
    superclass := ← r.withDefault "superclass" none (asOption asString) }

/-- The given fields, without those that are absent. -/
def Json.present (fields : List (String × Option String)) : Json :=
  .object (fields.filterMap fun (k, v) => v.map fun s => (k, .string s))

/-- The fields in the order in which they are declared. -/
def ConstructQuery.toJson (q : ConstructQuery) : Json :=
  Json.present [("method", q.method), ("annotation_name", q.decoratorName),
    ("callee", q.callee), ("superclass", q.superclass)]

/-- The fields in the order of their names. -/
def ConstructQuery.toSortedJson (q : ConstructQuery) : Json :=
  Json.present [("annotation_name", q.decoratorName), ("callee", q.callee),
    ("method", q.method), ("superclass", q.superclass)]

namespace Feature

/-- Reads a feature. -/
def ofJson (j : Json) : Except Misfit Feature := do
  let r ← asRecord [["feature_key"], ["library"], ["absolute_paths"], ["target_level"],
    ["concept"], ["locator_strategy"], ["construct_query"], ["description"], ["startpoint"]] j
  return {
    key := ← r.required "feature_key" asString
    library := ← r.withDefault "library" "" asString
    paths := ← r.required "absolute_paths" (asList asString)
    target := ← r.required "target_level" TargetLevel.ofJson
    concept := ← r.required "concept" Concept.ofJson
    strategy := ← r.withDefault "locator_strategy" .direct LocatorStrategy.ofJson
    constructs := ← r.withDefault "construct_query" none
      (asOption (asTable ConstructQuery.ofJson))
    description := ← r.withDefault "description" "" asString
    startpoint := ← r.withDefault "startpoint" false asBool }

/-- A table of what narrows a feature down. -/
def constructsJson (encode : ConstructQuery → Json) (t : Table ConstructQuery) : Json :=
  .object (t.entries.map fun (k, q) => (k, encode q))

/-- A feature as it is written down. -/
def toJson (f : Feature) : Json :=
  .object ([
    ("feature_key", .string f.key), ("library", .string f.library),
    ("absolute_paths", .strings f.paths), ("target_level", f.target.toJson),
    ("concept", f.concept.toJson), ("locator_strategy", f.strategy.toJson)] ++
    (f.constructs.map fun t =>
      ("construct_query", constructsJson ConstructQuery.toJson t)).toList ++
    [("description", .string f.description), ("startpoint", .bool f.startpoint)])

end Feature

/-- Reads a file of features. -/
def CatalogFile.ofJson (j : Json) : Except Misfit CatalogFile := do
  let r ← asRecord [["version"], ["language"], ["library"], ["features"]] j
  return {
    version := ← r.withDefault "version" 1 asNat32
    language := ← r.required "language" asString
    library := ← r.required "library" asString
    features := ← r.withDefault "features" [] (asList Feature.ofJson) }

/-- A file of features as it is written down. -/
def CatalogFile.toJson (c : CatalogFile) : Json :=
  .object [("version", .nat c.version), ("language", .string c.language),
    ("library", .string c.library), ("features", .list (c.features.map Feature.toJson))]

/-- A value out of a JSON text. -/
def Json.decode {α : Type} (f : Json → Except Misfit α) (text : String) : Except Misfit α :=
  match Json.ofText? text with
  | some j => f j
  | none => .error .notJson

end SourceFacts
