/-!
# What can go wrong

Errors of the configuration concern a feature, a set of queries, or a whole language; errors of
the other kinds concern one file.
-/

namespace SourceFacts

/-- Something is wrong with the configuration. -/
inductive ConfigError where
  /-- A query or template file that has to be there is not. -/
  | missingQueryFile (path : String)
  /-- No template fits the shape of a feature. -/
  | unsupportedCombination (concept target : String)
  /-- A template has a placeholder that nothing fills. -/
  | unresolvedPlaceholder (template placeholder : String)
  /-- The text of a query is no query. -/
  | queryCompile (name reason : String)
  | malformedCatalog (path reason : String)
  | invalidCatalogEntry (library featureKey reason : String)
  | unsupportedLanguage (name : String)
  | grammarLoad (language reason : String)
  /-- A key of the cache was asked for with other sources than before. -/
  | cacheKeyConflict (key : String)
  | invalidGlob (pattern reason : String)
  | malformedRuleTable (reason : String)
  | malformedConfig (path reason : String)
deriving Repr, BEq, DecidableEq, Inhabited

/-- The text of an error. -/
def ConfigError.message : ConfigError → String
  | .missingQueryFile path => "Missing query file: " ++ path
  | .unsupportedCombination concept target =>
    "Unsupported combination: concept '" ++ concept ++ "' with target level '" ++ target ++ "'"
  | .unresolvedPlaceholder template placeholder =>
    "Unresolved placeholder '\x7b\x7b" ++ placeholder ++ "\x7d\x7d' in template '" ++
      template ++ "'"
  | .queryCompile name reason => "Query '" ++ name ++ "' failed to compile: " ++ reason
  | .malformedCatalog path reason => "Malformed catalog " ++ path ++ ": " ++ reason
  | .invalidCatalogEntry library featureKey reason =>
    "Invalid catalog entry '" ++ library ++ "/" ++ featureKey ++ "': " ++ reason
  | .unsupportedLanguage name => "Unsupported language: " ++ name
  | .grammarLoad language reason =>
    "Grammar for '" ++ language ++ "' failed to load: " ++ reason
  | .cacheKeyConflict key =>
    "Cache key '" ++ key ++ "' is already bound to a different query configuration"
  | .invalidGlob pattern reason => "Invalid glob '" ++ pattern ++ "': " ++ reason
  | .malformedRuleTable reason => "Malformed package-manager rule table: " ++ reason
  | .malformedConfig path reason => "Malformed config " ++ path ++ ": " ++ reason

/-- Why a file could not be analysed. -/
inductive EngineError where
  | config (e : ConfigError)
  /-- The content is no source text. -/
  | parse (path reason : String)
  /-- The file could not be read. -/
  | io (reason : String)
deriving Repr, BEq, DecidableEq, Inhabited

namespace EngineError

/-- The text of an error. -/
def message : EngineError → String
  | .config e => e.message
  | .parse path reason => "Parse failure in " ++ path ++ ": " ++ reason
  | .io reason => "I/O error: " ++ reason

/-- Whether the error concerns more than one file. -/
def isFatal : EngineError → Bool
  | .config _ => true
  | .parse _ _ | .io _ => false

end EngineError

end SourceFacts
