import SourceFacts.Detection
import SourceFacts.Query.Search
import SourceFacts.QueryCache
import SourceFacts.SourceContext

/-!
# Detecting features

A feature is looked for in files that import one of its paths or a module that contains it. Each
match of its query has to go back to the import, in the way that the feature's strategy says:
through a module variable that holds the result of calling what was imported, or through what
was imported itself. Of several detections with the same feature and lines the first is kept.
-/

namespace SourceFacts.Detector

open Syntax (Node Place SourceText)

/-- Whether an expression is one of the given references, or a member of one. -/
def isReference (subject : String) (references : List String) : Bool :=
  references.any fun r =>
    subject == r ||
      (match Text.afterFront? r.toList subject.toList with
      | some ('.' :: _) => true
      | _ => false)

/-- A feature with what it goes by in a file. -/
structure Locator where
  feature : Feature
  /-- The local spellings of the feature's paths. -/
  references : List String
  /-- The variables that hold the result of calling one of them. -/
  receivers : List String
deriving Repr, Inhabited

/-- Whether a receiver, or else a whole expression, goes back to the import. -/
def Locator.accepts (l : Locator) (boundObject : Option String) (subject : String) : Bool :=
  match l.feature.strategy with
  | .variableBound => boundObject.any l.receivers.contains
  | .direct => isReference subject l.references

/-- What a feature goes by in a context. -/
def locatorOf (c : SourceContext) (f : Feature) : Locator :=
  let references := (f.paths.flatMap c.aliases.localReferences).eraseDups
  { feature := f, references
    receivers := match f.strategy with
      | .variableBound => c.boundVariables references
      | .direct => [] }

/-- Whether a file could use a feature at all. -/
def isEligible (expandedImports : List String) (f : Feature) : Bool :=
  f.paths.any expandedImports.contains

/-- Whether there is anything that a match could go back to. -/
def Locator.isOpen (l : Locator) : Bool :=
  l.feature.strategy == .direct || !l.receivers.isEmpty

/-! ## Decorators -/

/-- The expression that a decorator applies, without arguments. -/
def decoratorSubject (t : SourceText) (decorator : Node) : String :=
  match decorator.namedChildren.head? with
  | none => ""
  | some e =>
    if e.kind == "call" || e.kind == "call_expression" then
      t.textOf ((e.child? "function").getD e)
    else t.textOf e

/-- The node that a decorator is attached to. -/
def decoratedNode? (l : Language) (decorator : Place) : Option Node := do
  let parent ← decorator.parent?
  match l.family with
  | .python => parent.node.child? "definition"
  | .typescript =>
    match parent.node.kind with
    | "export_statement" => parent.node.child? "declaration"
    | "class_body" =>
      (decorator.followingNamed.find? fun p => p.node.kind != "decorator").map (·.node)
    | _ => return parent.node

/-- The level of a definition; nothing for fields, parameters and the like. -/
def levelOf? (definition : Node) : Option TargetLevel :=
  match definition.kind with
  | "function_definition" | "method_definition" | "method_signature"
  | "abstract_method_signature" => some .function
  | "class_definition" | "class_declaration" | "abstract_class_declaration" | "class" =>
    some .type
  | _ => none

/-- The level and the name of what a decorator is attached to. -/
def decoratedTarget? (l : Language) (t : SourceText) (decorator : Place) :
    Option (TargetLevel × Option String) := do
  let definition ← decoratedNode? l decorator
  let level ← levelOf? definition
  return (level, (definition.child? "name").map t.textOf)

/-! ## Matches -/

/-- A match with the query that it is a match of. -/
structure Hit where
  query : Query
  found : Query.Match

/-- What a match captured under a name. -/
def Hit.place? (h : Hit) (name : String) : Option Place :=
  h.found.place? (h.query.captureIndex? name)

/-- The lines from the start of one node to the end of another. -/
def lines (first last : Node) : Nat × Nat := (first.span.firstLine, last.span.lastLine)

/-- A detection with what all detections of a feature say. -/
def stamp (f : Feature) (d : Detection) : Detection :=
  let d := (d.withMetadata "target" f.target.name).withMetadata "locator" f.strategy.name
  if f.startpoint then d.withMetadata "startpoint" "true" else d

/-- The detection of a decorator. -/
def decorator? (p : ParsedSource) (l : Locator) (h : Hit) : Option Detection := do
  let t := p.text
  let boundObject := (h.place? "bound_object").map fun b => t.textOf b.node
  let decorator ← h.place? "annotation"
  let name ← h.place? "annotation_name"
  let (level, targetName) ← decoratedTarget? p.language t decorator
  if level != l.feature.target then none
  else if !l.accepts boundObject (decoratorSubject t decorator.node) then none
  else
    let d := Detection.new l.feature.key l.feature.library
      (Text.trimmed (t.textOf decorator.node)) (lines decorator.node decorator.node)
      (.decorator boundObject (t.textOf name.node) l.receivers)
    match targetName with
    | some n => return d.withMetadata "target_name" n
    | none => return d

/-- The detection of a call. -/
def call? (p : ParsedSource) (l : Locator) (h : Hit) : Option Detection := do
  let t := p.text
  let boundObject := (h.place? "bound_object").map fun b => t.textOf b.node
  let target ← h.place? "target"
  let callee := t.textOf (← h.place? "callee").node
  if !l.accepts boundObject callee then none
  else
    let arguments := ((h.place? "call_args").map fun a => t.textOf a.node).getD ""
    return Detection.new l.feature.key l.feature.library (t.textOf target.node)
      (lines target.node target.node) (.call callee arguments)

/-- The text from one offset to another, or another text if there is none between. -/
def sliceOr (t : SourceText) (start stop : Nat) (other : String) : String :=
  if start ≤ stop then t.slice start stop else other

/-- The detection of a base class. Its text is the head of the class, up to the end of what
the base class stands in. -/
def inheritance? (p : ParsedSource) (l : Locator) (h : Hit) : Option Detection := do
  let t := p.text
  let boundObject := (h.place? "bound_object").map fun b => t.textOf b.node
  let target ← h.place? "target"
  let subclass := t.textOf (← h.place? "subclass").node
  let base ← h.place? "superclass"
  let superclass := t.textOf base.node
  if !l.accepts boundObject superclass then none
  else
    let last := ((base.parent?).map (·.node)).getD base.node
    let head := sliceOr t target.node.span.start last.span.stop superclass
    return Detection.new l.feature.key l.feature.library head (lines target.node last)
      (.inheritance subclass superclass)

/-- The detection that a match gives rise to, if it goes back to the import. -/
def detection? (p : ParsedSource) (l : Locator) (q : FeatureQuery) (m : Query.Match) :
    Option Detection :=
  let h : Hit := ⟨q.query, m⟩
  if q.requiresMethod && (h.place? "method").isNone then none
  else
    let d := match l.feature.concept with
      | .decorator => decorator? p l h
      | .call => call? p l h
      | .inheritance => inheritance? p l h
    d.map (stamp l.feature)

/-- The detections of a feature, in the order of the matches of its query. -/
def detections (p : ParsedSource) (l : Locator) (q : FeatureQuery) : List Detection :=
  (q.query.matchesOf p.text p.root).filterMap (detection? p l q)

/-- The detections of an eligible feature, with its query out of the cache. A feature whose
query cannot be compiled has none. -/
def detectFeature (p : ParsedSource) (templates : TemplateSet) (f : Feature) (c : QueryCache) :
    List Detection × QueryCache :=
  match c.featureQuery p.language templates f with
  | (.error _, c) => ([], c)
  | (.ok q, c) =>
    let l := locatorOf p.context f
    (if l.isOpen then detections p l q else [], c)

/-- The detections of all eligible features, one after the other. -/
def detectAll (p : ParsedSource) (templates : TemplateSet) (expandedImports : List String) :
    List Feature → QueryCache → List Detection × QueryCache
  | [], c => ([], c)
  | f :: rest, c =>
    if isEligible expandedImports f then
      let (found, c) := detectFeature p templates f c
      let (others, c) := detectAll p templates expandedImports rest c
      (found ++ others, c)
    else detectAll p templates expandedImports rest c

/-- Keeps the first detection of each use; `seen` are the uses met before. -/
def firstUses (seen : List (String × Nat × Nat)) : List Detection → List Detection
  | [] => []
  | d :: rest =>
    if seen.contains d.useKey then firstUses seen rest
    else d :: firstUses (d.useKey :: seen) rest

/-- The uses of features in a file. -/
def detect (p : ParsedSource) (templates : TemplateSet) (features : List Feature)
    (c : QueryCache) : List Detection × QueryCache :=
  let (found, c) := detectAll p templates p.context.expandedImports features c
  (firstUses [] found, c)

end SourceFacts.Detector
