import SourceFacts.FeatureQuery

/-!
# Compiled queries, kept

What has been compiled once is kept. Sets of queries are kept under keys chosen by the caller,
and a key belongs for good to the language and sources of its first success. Queries of features
are kept under their own keys. Failures leave nothing behind.
-/

namespace SourceFacts

/-- Where the text of a query comes from. -/
inductive QueryOrigin where
  | embedded (text : String)
  | file (path : String)
deriving Repr, BEq, DecidableEq, Inhabited

/-- A named query of a set. One that is optional may be missing on disk. -/
structure QuerySource where
  name : String
  origin : QueryOrigin
  optional : Bool
deriving Repr, BEq, DecidableEq, Inhabited

/-- Compiled queries, in the order of their sources. -/
structure QuerySet where
  queries : List (String × Query)
deriving Inhabited

namespace QuerySet

/-- The first query with the given name. -/
def get? (s : QuerySet) (name : String) : Option Query :=
  (s.queries.find? (·.1 == name)).map (·.2)

/-- The names of the queries. -/
def names (s : QuerySet) : List String := s.queries.map (·.1)

end QuerySet

namespace QuerySource

/-- The text of a source, or nothing for an optional one that is not there. -/
def text? (fs : FileSystem) (s : QuerySource) : Except ConfigError (Option String) :=
  match s.origin with
  | .embedded text => .ok (some text)
  | .file path =>
    match fs.readText path with
    | .ok text => .ok (some text)
    | .error .notFound =>
      if s.optional then .ok none else .error (.missingQueryFile path)
    | .error e => .error (.queryCompile s.name e.message)

/-- The compiled query of a source, or nothing for an optional one that is not there. -/
def compile? (fs : FileSystem) (l : Language) (s : QuerySource) :
    Except ConfigError (Option (String × Query)) := do
  match ← s.text? fs with
  | none => return none
  | some text => return some (s.name, ← FeatureQuery.readQuery l s.name text)

end QuerySource

/-- The set of compiled sources; fails with the first that cannot be compiled. -/
def QuerySet.compile (fs : FileSystem) (l : Language) :
    List QuerySource → Except ConfigError QuerySet
  | [] => .ok ⟨[]⟩
  | s :: rest => do
    let found ← s.compile? fs l
    let others ← QuerySet.compile fs l rest
    return ⟨found.toList ++ others.queries⟩

/-- A set with what it was compiled from. -/
structure BoundSet where
  language : Language
  sources : List QuerySource
  set : QuerySet
deriving Inhabited

/-- What has been compiled so far. -/
structure QueryCache where
  sets : List (String × BoundSet)
  features : List (String × FeatureQuery)
deriving Inhabited

namespace QueryCache

/-- Nothing has been compiled yet. -/
def empty : QueryCache := ⟨[], []⟩

/-- What is bound to a key. -/
def bound? (c : QueryCache) (key : String) : Option BoundSet :=
  (c.sets.find? (·.1 == key)).map (·.2)

/-- The query kept under a key. -/
def feature? (c : QueryCache) (key : String) : Option FeatureQuery :=
  (c.features.find? (·.1 == key)).map (·.2)

/-- How many queries of features there are. -/
def featureCount (c : QueryCache) : Nat := c.features.length

/-- The set of queries under a key, compiled if the key is free. -/
def querySet (fs : FileSystem) (key : String) (l : Language) (sources : List QuerySource)
    (c : QueryCache) : Except ConfigError QuerySet × QueryCache :=
  match c.bound? key with
  | some b =>
    if b.language = l ∧ b.sources = sources then (.ok b.set, c)
    else (.error (.cacheKeyConflict key), c)
  | none =>
    match QuerySet.compile fs l sources with
    | .ok set => (.ok set, { c with sets := (key, ⟨l, sources, set⟩) :: c.sets })
    | .error e => (.error e, c)

/-- The query of a feature, compiled if its key is free. -/
def featureQuery (l : Language) (templates : TemplateSet) (f : Feature) (c : QueryCache) :
    Except ConfigError FeatureQuery × QueryCache :=
  match Template.select f.concept f.target with
  | .error e => (.error e, c)
  | .ok t =>
    let text := templates.text t
    let key := FeatureQuery.cacheKey l t text f
    match c.feature? key with
    | some q => (.ok q, c)
    | none =>
      match FeatureQuery.ofTemplate l t text key f with
      | .ok q => (.ok q, { c with features := (key, q) :: c.features })
      | .error e => (.error e, c)

end QueryCache

end SourceFacts
