import SourceFacts.Language
import SourceFacts.Syntax.Python.Vocabulary
import SourceFacts.Syntax.TypeScript.Vocabulary

/-!
# The syntax of each language
-/

namespace SourceFacts.Language

open Syntax

/-- The syntax tree of a source, and whether every part of it was understood. -/
def parse (l : Language) (t : SourceText) : Node × Bool :=
  match l with
  | .python => Python.parse t
  | .typescript => TypeScript.parse .plain t
  | .tsx => TypeScript.parse .tags t

/-- The vocabulary of plain TypeScript. -/
def plainVocabulary : Vocabulary := TypeScript.vocabulary .plain

/-- The vocabulary of the dialect with tags. -/
def tagVocabulary : Vocabulary := TypeScript.vocabulary .tags

/-- The words that queries on a language may use. -/
def vocabulary : Language → Vocabulary
  | .python => Python.vocabulary
  | .typescript => plainVocabulary
  | .tsx => tagVocabulary

end SourceFacts.Language
