import SourceFacts.Json.Decode
import SourceFacts.Language

/-!
# Languages as JSON
-/

namespace SourceFacts

/-- Reads a language. -/
def Language.ofJson : Json → Except Json.Misfit Language :=
  Json.asChoice (Language.all.map fun l => ([l.name], l))

/-- A language as it is written down. -/
def Language.toJson (l : Language) : Json := .string l.name

end SourceFacts
