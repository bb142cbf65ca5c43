import SourceFacts.Digest.Blake3
import SourceFacts.Feature.Json
import SourceFacts.Json.Printer
import SourceFacts.Query.Reader
import SourceFacts.Syntax.Languages
import SourceFacts.Template
import SourceFacts.Text.Part

/-!
# Queries of features

The query of a feature is the template for its shape, with the regular expressions of the
feature in place of the placeholders. A key identifies all that shapes the query: the language,
the template with the digest of its text, and the digest of the shaping fields of the feature.
-/

namespace SourceFacts

/-- A place in a template that a regular expression can fill. -/
inductive Slot where
  | decoratorName | method | callee | superclass
deriving Repr, BEq, DecidableEq, Inhabited

namespace Slot

/-- The capture that the regular expression constrains. -/
def capture : Slot → String
  | .decoratorName => "annotation_name"
  | .method => "method"
  | .callee => "callee"
  | .superclass => "superclass"

/-- The name of the placeholder. -/
def placeholder (s : Slot) : String := s.capture ++ "_predicate"

/-- The regular expression that a feature gives. -/
def regex? (s : Slot) (q : ConstructQuery) : Option String :=
  match s with
  | .decoratorName => q.decoratorName
  | .method => q.method
  | .callee => q.callee
  | .superclass => q.superclass

/-- All slots. -/
def all : List Slot := [.decoratorName, .method, .callee, .superclass]

/-- The slot with the given placeholder. -/
def ofPlaceholder? (name : String) : Option Slot := all.find? (·.placeholder == name)

end Slot

namespace FeatureQuery

/-- A character as it stands in a quoted text of a query. -/
def escapedChar (c : Char) : List Char :=
  match c with
  | '\\' => ['\\', '\\']
  | '"' => ['\\', '"']
  | '\n' => ['\\', 'n']
  | '\r' => ['\\', 'r']
  | '\t' => ['\\', 't']
  | c => [c]

/-- A regular expression as it stands in a quoted text of a query. -/
def escape (regex : String) : String := String.ofList (regex.toList.flatMap escapedChar)

/-- The predicate that a captured text is matched by a regular expression. -/
def predicate (capture regex : String) : String :=
  "(#match? @" ++ capture ++ " \"" ++ escape regex ++ "\")"

/-- What stands in place of a placeholder, or the name of one that nothing fills. -/
def filling (constructs : Option ConstructQuery) (name : String) : Except String String :=
  match Slot.ofPlaceholder? name with
  | none => .error name
  | some s =>
    match constructs.bind s.regex? with
    | some r => .ok (predicate s.capture r)
    | none => .ok ""

/-- Fills the placeholders of a text; within one, `inside` is what was read of it, the latest
character first. Fails with the first placeholder that nothing fills or ends. -/
def fill (constructs : Option ConstructQuery) :
    (inside : Option (List Char)) → List Char → Except String (List Char)
  | none, [] => .ok []
  | some acc, [] => .error (Text.trimmed (String.ofList acc.reverse))
  | none, '\x7b' :: '\x7b' :: rest => fill constructs (some []) rest
  | none, c :: rest => do return c :: (← fill constructs none rest)
  | some acc, '\x7d' :: '\x7d' :: rest => do
    let text ← filling constructs (Text.trimmed (String.ofList acc.reverse))
    return text.toList ++ (← fill constructs none rest)
  | some acc, c :: rest => fill constructs (some (c :: acc)) rest

/-- Fills the placeholders of a template. -/
def render (t : Template) (text : String) (constructs : Option ConstructQuery) :
    Except ConfigError String :=
  match fill constructs none text.toList with
  | .ok s => .ok (String.ofList s)
  | .error name => .error (.unresolvedPlaceholder t.name name)

/-- The fields of a feature that shape its query, in order of their names. -/
def shape (f : Feature) : Json :=
  .object [
    ("absolute_paths", .strings f.paths), ("concept", f.concept.toJson),
    ("construct_query",
      .ofOption (Feature.constructsJson ConstructQuery.toSortedJson) f.constructs),
    ("feature_key", .string f.key), ("library", .string f.library),
    ("locator_strategy", f.strategy.toJson), ("target_level", f.target.toJson)]

/-- The digest of what shapes the query of a feature. -/
def contentHash (f : Feature) : String := Blake3.hex (shape f).compact

/-- The key of the query of a feature. -/
def cacheKey (l : Language) (t : Template) (text : String) (f : Feature) : String :=
  l.name ++ ":" ++ t.name ++ ":" ++ Blake3.hex text ++ ":" ++ contentHash f

end FeatureQuery

/-- The query of a feature, ready to run. -/
structure FeatureQuery where
  template : Template
  language : Language
  key : String
  /-- The text of the query, with its predicates. -/
  text : String
  query : Query
  /-- A match has to capture a method: the predicate on it passes where it is absent. -/
  requiresMethod : Bool
deriving Inhabited

namespace FeatureQuery

/-- What the template calls the method, where it asks for it. -/
def methodPlaceholder : String := "\x7b\x7bmethod_predicate\x7d\x7d"

/-- The text of a fault in a query. -/
def faultText (f : Query.Fault) : String :=
  match f with
  | .malformed => "the text is no query"
  | .unknownKind name => "there is no kind of node '" ++ name ++ "'"
  | .unknownRole name => "there is no field '" ++ name ++ "'"
  | .unknownCapture name => "there is no capture '" ++ name ++ "'"
  | .noFamily name => "'" ++ name ++ "' has no such member"
  | .wrongOperands name => "wrong operands of '" ++ name ++ "'"
  | .impossible => "the query asks for what cannot be"
  | .badRegex _ => "invalid regular expression"
  | .tooDeep => "the query nests too deep"

/-- The query with the given text, for a language. -/
def readQuery (l : Language) (name text : String) : Except ConfigError Query :=
  match Query.ofText l.vocabulary text with
  | .ok q => .ok q
  | .error f => .error (.queryCompile name (faultText f))

/-- The query of a feature under a template, with its key. -/
def ofTemplate (l : Language) (t : Template) (text key : String) (f : Feature) :
    Except ConfigError FeatureQuery := do
  let constructs := f.constructsFor l.family
  let rendered ← render t text constructs
  let query ← readQuery l (f.library ++ "/" ++ f.key) rendered
  return {
    template := t, language := l, key, text := rendered, query
    requiresMethod := Text.occursIn methodPlaceholder text
      && constructs.any (·.method.isSome) }

/-- The query of a feature, made anew. -/
def compile (l : Language) (s : TemplateSet) (f : Feature) : Except ConfigError FeatureQuery := do
  let t ← Template.select f.concept f.target
  ofTemplate l t (s.text t) (cacheKey l t (s.text t) f) f

end FeatureQuery

end SourceFacts
