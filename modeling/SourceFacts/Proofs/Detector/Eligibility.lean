import SourceFacts.Proofs.Detector.Justification
import SourceFacts.Proofs.Imports.FirstBindings
import SourceFacts.Proofs.Imports.LocalNames

/-!
# Which features a file could use

A feature is passed over unless one of its paths is imported or contains what is. A path can also
be spelled where only a module that contains it was imported: `import fastapi` leaves
`fastapi.FastAPI` to be spelled out, and yet `fastapi.FastAPI` is neither imported nor does it
contain an import. A path of dots only names no module, whatever is imported by it
(`not_isEligible_of_accepts`). This is all that passing over can lose: a feature with another path
that was imported under a name of its own is never passed over, and the spellings of one that is
go down from imported modules (`isEligible_spec`).
-/

namespace SourceFacts

namespace Detector

variable {p : ParsedSource} {context : SourceContext} {f : Feature}

theorem isEligible_iff : isEligible context.expandedImports f = true ↔
    ∃ path ∈ f.paths, Imports.isDotsOnly path.toList = false ∧
      ∃ imported ∈ context.imports, Imports.StandsIn path imported := by
  simp only [isEligible, List.any_eq_true, List.contains_iff_mem,
    SourceContext.mem_expandedImports]

/-- A text spells a path by way of a module that was imported under a name: the path goes on
after the module as the text goes on after the name. -/
def SpelledFromModule (context : SourceContext) (path text : String) : Prop :=
  ∃ module name rest, (module, name) ∈ context.aliases.entries ∧ rest ≠ "" ∧
    path = module ++ "." ++ rest ∧ text = name ++ "." ++ rest

/-- A spelling of a path is a name that it was imported under, or goes by way of a module. -/
theorem imported_or_spelledFromModule {path text : String}
    (h : text ∈ context.aliases.localReferences path) :
    (path, text) ∈ context.aliases.entries ∨ SpelledFromModule context path text := by
  obtain ⟨⟨imported, name⟩, hentry, hspells⟩ := ImportAliases.mem_localReferences.mp h
  rcases hspells with ⟨rfl, rfl⟩ | ⟨rest, hrest, hpath, htext⟩
  · exact Or.inl hentry
  · exact Or.inr ⟨imported, name, rest, hentry, hrest, hpath, htext⟩

/-- What is accepted goes back to a spelling of one of the feature's paths. -/
theorem exists_isSpelling_of_located {h : Hit} (hlocated : Located p f h) :
    ∃ text, IsSpelling p.context f text := by
  unfold Located at hlocated
  split at hlocated
  · obtain ⟨-, -, b, -, -, hspelling⟩ := hlocated
    exact ⟨b.callee, hspelling⟩
  · obtain ⟨-, -, r, hspelling, -⟩ := hlocated
    exact ⟨r, hspelling⟩

/-- **What passing over a feature can lose.** In the context of any tree, a feature could be used
if and only if one of its paths, not made of dots only, is imported or contains what is. It could
be if such a path was imported under a local name. Where it could not be, such paths are spelled
by way of imported modules only. So, unless a path of the feature goes on after an imported module
or is made of dots only, no match of any query is accepted for a feature that is passed over. -/
theorem isEligible_spec (l : Language) (t : Syntax.SourceText) (root : Syntax.Node)
    (f : Feature) :
    let p : ParsedSource := ⟨l, t, root, .ofTree l t root⟩
    let eligible := isEligible p.context.expandedImports f
    (eligible = true ↔ ∃ path ∈ f.paths, Imports.isDotsOnly path.toList = false ∧
      ∃ imported ∈ p.context.imports, Imports.StandsIn path imported) ∧
    (∀ path ∈ f.paths, Imports.isDotsOnly path.toList = false →
      (∃ name, (path, name) ∈ p.context.aliases.entries) → eligible = true) ∧
    (eligible = false → ∀ path ∈ f.paths, Imports.isDotsOnly path.toList = false →
      ∀ text ∈ p.context.aliases.localReferences path, SpelledFromModule p.context path text) ∧
    (eligible = false →
      (∀ path ∈ f.paths, Imports.isDotsOnly path.toList = false ∧
        ∀ text, ¬ SpelledFromModule p.context path text) →
      ∀ q m, detection? p (locatorOf p.context f) q m = none) := by
  intro p eligible
  have hown : ∀ path ∈ f.paths, Imports.isDotsOnly path.toList = false →
      (∃ name, (path, name) ∈ p.context.aliases.entries) → eligible = true := by
    rintro path hpath hdots ⟨name, hentry⟩
    have himported : path ∈ p.context.imports := SourceContext.mem_imports_of_mem_aliases hentry
    exact isEligible_iff.mpr ⟨path, hpath, hdots, path, himported, Or.inl rfl⟩
  have hbelow : eligible = false → ∀ path ∈ f.paths, Imports.isDotsOnly path.toList = false →
      ∀ text ∈ p.context.aliases.localReferences path,
        SpelledFromModule p.context path text := by
    intro hnot path hpath hdots text htext
    refine (imported_or_spelledFromModule htext).resolve_left fun hentry => ?_
    exact absurd (hown path hpath hdots ⟨text, hentry⟩) (by simp [hnot])
  refine ⟨isEligible_iff, hown, hbelow, fun hnot hnone q m => ?_⟩
  rw [Option.eq_none_iff_forall_ne_some]
  intro d hd
  obtain ⟨-, shown, -, hshown⟩ := shows_detection? hd
  obtain ⟨subject, hsubject, haccepted⟩ := hshown.accepted
  obtain ⟨text, path, hpath, htext⟩ :=
    exists_isSpelling_of_located (located_of_accepts hsubject haccepted)
  obtain ⟨hdots, hspelled⟩ := hnone path hpath
  exact hspelled text (hbelow hnot path hpath hdots text htext)

/-- After `import fastapi` the path `fastapi.FastAPI` has a spelling and a call of it would be
accepted, but the feature is passed over. So is one with the path `.` after
`import app from '.'`: dots alone name nothing. -/
theorem not_isEligible_of_accepts :
    let f (path : String) : Feature :=
      { key := "app", library := "fastapi", paths := [path], target := .function
        concept := .call, strategy := .direct, constructs := none, description := ""
        startpoint := false }
    let parentImport : SourceContext :=
      let name : Syntax.Node := ⟨"dotted_name", true, some "name", ⟨7, 14, 0, 0⟩, []⟩
      .ofTree .python (.ofString "import fastapi") ⟨"module", true, none, ⟨0, 14, 0, 0⟩,
        [⟨"import_statement", true, none, ⟨0, 14, 0, 0⟩, [name]⟩]⟩
    let dotsImport : SourceContext :=
      let name : Syntax.Node := ⟨"identifier", true, none, ⟨7, 10, 0, 0⟩, []⟩
      let clause : Syntax.Node := ⟨"import_clause", true, none, ⟨7, 10, 0, 0⟩, [name]⟩
      let source : Syntax.Node := ⟨"string", true, some "source", ⟨16, 19, 0, 0⟩, []⟩
      .ofTree .typescript (.ofString "import app from '.'") ⟨"program", true, none, ⟨0, 19, 0, 0⟩,
        [⟨"import_statement", true, none, ⟨0, 19, 0, 0⟩, [clause, source]⟩]⟩
    let passedOver (context : SourceContext) (path text : String) : Prop :=
      text ∈ context.aliases.localReferences path ∧
        (locatorOf context (f path)).accepts none text = true ∧
        isEligible context.expandedImports (f path) = false
    passedOver parentImport "fastapi.FastAPI" "fastapi.FastAPI" ∧
      passedOver dotsImport "." "app" := by
  intro f parentImport dotsImport passedOver
  simp only [passedOver]
  decide

end Detector

end SourceFacts
