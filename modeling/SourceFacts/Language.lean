import SourceFacts.Text.Blank

/-!
# Source languages

The languages that can be analysed, and the families under which catalogs and templates are
kept: the dialect with tags shares everything with plain TypeScript but its grammar.
-/

namespace SourceFacts

/-- A family of languages. -/
inductive Family where
  | python | typescript
deriving Repr, BEq, DecidableEq, Inhabited

/-- The name of a family. -/
def Family.name : Family → String
  | .python => "python"
  | .typescript => "typescript"

/-- The family with the given name. -/
def Family.ofName? : String → Option Family
  | "python" => some .python
  | "typescript" => some .typescript
  | _ => none

/-- A source language. -/
inductive Language where
  | python | typescript | tsx
deriving Repr, BEq, DecidableEq, Inhabited

namespace Language

/-- All languages. -/
def all : List Language := [.python, .typescript, .tsx]

/-- The name of a language. -/
def name : Language → String
  | .python => "python"
  | .typescript => "typescript"
  | .tsx => "tsx"

/-- The family of a language. -/
def family : Language → Family
  | .python => .python
  | .typescript | .tsx => .typescript

/-- The language with the given name, as it stands in configuration: short names are known too,
and neither letter case nor blanks around the name count. -/
def ofName? (s : String) : Option Language :=
  match String.ofList ((Text.trim s.toList).map Char.toLower) with
  | "python" | "py" => some .python
  | "typescript" | "ts" => some .typescript
  | "tsx" => some .tsx
  | _ => none

/-- The language of files with the given extension. -/
def ofExtension? : String → Option Language
  | "py" | "pyi" => some .python
  | "ts" | "mts" | "cts" => some .typescript
  | "tsx" => some .tsx
  | _ => none

end Language

end SourceFacts
