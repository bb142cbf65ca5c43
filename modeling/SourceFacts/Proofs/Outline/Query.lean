import SourceFacts.Outline.Extract
import SourceFacts.Proofs.Query.Words
import SourceFacts.Proofs.QueryCache.Sets
import SourceFacts.Proofs.Syntax.Contents

/-!
# The query for outlines

The query for outlines comes with the library, and it is accepted by the grammar of Python: it
compiles, always to the same steps (`Outline.readQuery_outline`). The words it uses are few
(`Outline.queryWords`); that the grammar knows them can be read off its rules for functions and
classes, without collecting what the others contribute.
-/

namespace SourceFacts.Outline

open Syntax (Vocabulary Part Rule)

/-- What the query for outlines is compiled to: a function has a name, and a class has a name and
perhaps base classes. -/
def compiledQuery : Query where
  steps := #[
    { Query.Step.plain (.kind "function_definition" true) (some 0) false with
      captures := [1], splits := true },
    { Query.Step.plain (.kind "identifier" true) (some 1) false with
      role := some "name", captures := [0], splits := true },
    .finish,
    { Query.Step.plain (.kind "class_definition" true) (some 0) false with
      captures := [4], splits := true },
    { Query.Step.plain (.kind "identifier" true) (some 1) false with
      role := some "name", captures := [2], splits := true },
    { Query.Step.plain (.kind "argument_list" true) (some 1) false with
      role := some "superclasses", captures := [3], alternative := some 6, splits := true },
    .finish]
  entries := [⟨0, 0⟩, ⟨3, 1⟩]
  predicates := #[[], []]
  captureNames := #["fn.name", "fn.def", "class.name", "class.bases", "class.def"]

/-- The words that the query for outlines uses. -/
def queryWords : Vocabulary where
  hasKind kind named := named &&
    ["function_definition", "class_definition", "identifier", "argument_list"].contains kind
  hasRole := ["name", "superclasses"].contains
  parts? kind :=
    if kind = "function_definition" ∨ kind = "class_definition" then
      some [⟨some "name", "identifier", true⟩]
    else none
  extras := []
  families := Syntax.Python.families

theorem readsAs_compiledQuery :
    Query.readsAs queryWords BuiltinQuery.pythonOutline compiledQuery = true := by
  decide +kernel

/-- All rules of the grammar. -/
def grammarRules : List (String × Rule Syntax.Python.Terminal) :=
  Syntax.Python.outerRules ++ Syntax.Python.Rules.statements ++ Syntax.Python.Rules.casePatterns ++
    Syntax.Python.Rules.signatures ++ Syntax.Python.Rules.expressions

/-- A name that a rule demands is among the children of the nodes that it makes. -/
theorem exists_parts_of_rule {name kind : String} {r : Rule Syntax.Python.Terminal}
    (hrule : grammarRules.find? (·.1 == name) = some (name, .node kind r))
    (hname : ⟨some "name", "identifier", true⟩ ∈ r.ownParts Syntax.Python.Terminal.kinds) :
    ∃ qs, Syntax.Python.vocabulary.parts? kind = some qs ∧
      [⟨some "name", "identifier", true⟩] ⊆ qs :=
  Vocabulary.parts?_ofRules (List.mem_of_find?_eq_some hrule)
    (List.cons_subset.mpr ⟨hname, List.nil_subset _⟩) (List.cons_ne_nil _ _)

theorem queryWords_le : queryWords.Le Syntax.Python.vocabulary where
  hasKind kind named h := by
    obtain ⟨rfl, hkind⟩ : named = true ∧ kind ∈
        ["function_definition", "class_definition", "identifier", "argument_list"] := by
      simpa [queryWords] using h
    refine Vocabulary.hasKind_ofRules ?_
    simp only [List.mem_cons, List.not_mem_nil, or_false] at hkind
    rcases hkind with rfl | rfl | rfl | rfl
    all_goals decide +kernel
  hasRole role h := by
    have hrole : role ∈ ["name", "superclasses"] := by simpa [queryWords] using h
    refine Vocabulary.hasRole_ofRules ?_
    simp only [List.mem_cons, List.not_mem_nil, or_false] at hrole
    rcases hrole with rfl | rfl
    all_goals decide +kernel
  parts kind ps h := by
    obtain ⟨hkind, rfl⟩ : (kind = "function_definition" ∨ kind = "class_definition") ∧
        [⟨some "name", "identifier", true⟩] = ps := by
      simpa [queryWords] using h
    rcases hkind with rfl | rfl
    · have hrule : ∃ r, grammarRules.find? (·.1 == "function") =
          some ("function", .node "function_definition" r) ∧
          ⟨some "name", "identifier", true⟩ ∈ r.ownParts Syntax.Python.Terminal.kinds :=
        ⟨_, rfl, by decide⟩
      obtain ⟨r, hr, hname⟩ := hrule
      exact exists_parts_of_rule hr hname
    · have hrule : ∃ r, grammarRules.find? (·.1 == "class") =
          some ("class", .node "class_definition" r) ∧
          ⟨some "name", "identifier", true⟩ ∈ r.ownParts Syntax.Python.Terminal.kinds :=
        ⟨_, rfl, by decide⟩
      obtain ⟨r, hr, hname⟩ := hrule
      exact exists_parts_of_rule hr hname
  extras := List.nil_subset _
  families := rfl

/-- The query for outlines compiles. -/
theorem readQuery_outline :
    FeatureQuery.readQuery .python "outline" BuiltinQuery.pythonOutline = .ok compiledQuery := by
  have hread : Query.ofText Language.python.vocabulary BuiltinQuery.pythonOutline =
      .ok compiledQuery :=
    Query.ofText_mono queryWords_le (Query.ofText_of_readsAs readsAs_compiledQuery)
  rw [FeatureQuery.readQuery, hread]

theorem compile_querySource (fs : FileSystem) :
    QuerySet.compile fs .python [querySource] = .ok ⟨[("outline", compiledQuery)]⟩ :=
  QuerySet.compile_singleton rfl readQuery_outline

end SourceFacts.Outline
