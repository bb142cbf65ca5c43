import SourceFacts.Proofs.DataModel.Inheritance
import SourceFacts.Proofs.Tables

/-!
# Strategies for data models

Data models are looked for in one way after the other, and the first way that finds any settles the
matter (`search`). In Python the outline comes first and the query second; elsewhere there is the
query only (`strategies`, `detect_eq_search`).

So where the outline of a Python file has a model, the data models are those of the outline, and no
query, cache or syntax has a part in them; everywhere else they are those of the query
(`detect_neverMerges`). The outline has a model if and only if a class of it is one by itself,
because classes only inherit what others have (`exists_modelName_iff`).
-/

namespace SourceFacts

/-! ## Positions -/

namespace ModelPositions

/-- All models start before they end. -/
def Spans (p : ModelPositions) : Prop := ∀ name a b, (name, a, b) ∈ p.table.entries → a < b

theorem spans_empty : empty.Spans := fun _ _ _ h => absurd h List.not_mem_nil

theorem Spans.insert {p : ModelPositions} (h : p.Spans) (name : String) (a b : Nat) :
    (p.insert name a b).Spans := by
  unfold ModelPositions.insert
  split
  · exact h
  · rename_i hkept
    have hne : a ≠ b := by
      rintro rfl
      simp at hkept
    intro name' a' b' hmem
    rcases Table.mem_setIn hmem with heq | hold
    · cases heq
      omega
    · exact h name' a' b' hold

theorem spans_ofList (models : List (String × Nat × Nat)) : (ofList models).Spans := by
  have hfold : ∀ p : ModelPositions, p.Spans →
      (models.foldl (fun p m => p.insert m.1 m.2.1 m.2.2) p).Spans := by
    induction models with
    | nil => exact fun _ h => h
    | cons m rest ih => exact fun _ h => ih _ (h.insert m.1 m.2.1 m.2.2)
  exact hfold empty spans_empty

end ModelPositions

namespace DataModel

variable {m : ImportAliases} {o : Outline}

/-! ## Strategies -/

/-- A way of looking for data models, with a cache. Where it finds nothing, the next one is
tried. -/
abbrev Strategy :=
  ParsedSource → Outline → QueryCache → Except ConfigError (Option (List Model)) × QueryCache

/-- Some models, if there are any. -/
def anyOf (models : List Model) : Option (List Model) :=
  if models.isEmpty then none else some models

/-- By the outline and the names that the file imports. -/
def outlineStrategy : Strategy := fun p o c =>
  (.ok (anyOf (bySignature p.context.aliases o)), c)

/-- By a query out of the cache. -/
def queryStrategy (fs : FileSystem) (source : QuerySource) : Strategy := fun p _ c =>
  let (set, c) := c.querySet fs (queryKey p.language) p.language [source]
  (set.map fun set => (set.get? "data_model").bind fun q => anyOf (byQuery q p), c)

/-- What the first of some strategies finds that finds anything. -/
def search : List Strategy → ParsedSource → Outline → QueryCache →
    Except ConfigError ModelDetection × QueryCache
  | [], _, _, c => (.ok .none, c)
  | strategy :: rest, p, o, c =>
    match strategy p o c with
    | (.error e, c) => (.error e, c)
    | (.ok (some models), c) => (.ok ⟨true, .ofList models⟩, c)
    | (.ok none, c) => search rest p o c

/-- The strategies for a language, in the order in which they are tried. -/
def strategies (fs : FileSystem) (source : QuerySource) : Language → List Strategy
  | .python => [outlineStrategy, queryStrategy fs source]
  | .typescript | .tsx => [queryStrategy fs source]

theorem search_queryStrategy (fs : FileSystem) (source : QuerySource) (p : ParsedSource)
    (o : Outline) (c : QueryCache) : search [queryStrategy fs source] p o c =
      let result := c.querySet fs (queryKey p.language) p.language [source]
      (result.1.map fun set =>
        match set.get? "data_model" with
        | some q => detectionOf (byQuery q p)
        | none => .none, result.2) := by
  simp only [search, queryStrategy]
  generalize c.querySet fs (queryKey p.language) p.language [source] = result
  obtain ⟨answer, c'⟩ := result
  cases answer with
  | error e => rfl
  | ok set =>
    simp only [Except.map]
    cases set.get? "data_model" with
    | none => rfl
    | some q =>
      simp only [Option.bind_some, anyOf, detectionOf]
      cases (byQuery q p).isEmpty <;> rfl

theorem search_outlineStrategy (rest : List Strategy) (p : ParsedSource) (o : Outline)
    (c : QueryCache) : search (outlineStrategy :: rest) p o c =
      if (bySignature p.context.aliases o).isEmpty then search rest p o c
      else (.ok ⟨true, .ofList (bySignature p.context.aliases o)⟩, c) := by
  rw [search, outlineStrategy, anyOf]
  cases (bySignature p.context.aliases o).isEmpty <;> rfl

/-- Data models are what the strategies of the language find. -/
theorem detect_eq_search (fs : FileSystem) (source : QuerySource) (p : ParsedSource)
    (o : Outline) (c : QueryCache) :
    detect fs source p o c = search (strategies fs source p.language) p o c := by
  have hquery : ∀ l, p.language = l → l ≠ .python →
      detect fs source p o c = search [queryStrategy fs source] p o c := by
    rintro l rfl hl
    rw [search_queryStrategy, detect, if_neg hl]
    rfl
  cases hl : p.language with
  | typescript => exact hquery _ hl (by decide)
  | tsx => exact hquery _ hl (by decide)
  | python =>
    rw [strategies, search_outlineStrategy, search_queryStrategy, detect, if_pos hl]
    dsimp only [detectionOf]
    cases (bySignature p.context.aliases o).isEmpty <;> rfl

/-! ## What is found -/

/-- What is found has positions only if it is said to be found, and all of them are spans. -/
def WellFound (d : ModelDetection) : Prop :=
  (d.found = false → d.positions = .empty) ∧ d.positions.Spans

theorem wellFound_search (ways : List Strategy) (p : ParsedSource) (o : Outline) (c : QueryCache)
    {d : ModelDetection} (h : (search ways p o c).1 = .ok d) : WellFound d := by
  induction ways generalizing c with
  | nil =>
    cases h
    exact ⟨fun _ => rfl, ModelPositions.spans_empty⟩
  | cons strategy rest ih =>
    unfold search at h
    split at h
    · cases h
    · cases h
      exact ⟨nofun, ModelPositions.spans_ofList _⟩
    · exact ih _ h

/-- **Strategies are never merged.** A Python file whose outline has a model gets the models of the
outline, and only the names it imports have a part in that besides: the directory of queries, the
cache and the rest of the file do not. Every other file gets what the query finds. Models come
with positions only where they are said to be found, and positions are spans. -/
theorem detect_neverMerges (m : ImportAliases) (o : Outline) :
    ((∃ k ∈ o.classes, k.name ∈ modelNames m o) ↔ ∃ k ∈ o.classes, isSeed m k = true) ∧
    ((∃ k ∈ o.classes, k.name ∈ modelNames m o) → ∀ fs source (p : ParsedSource) c,
      p.language = .python → p.context.aliases = m →
        detect fs source p o c = (.ok ⟨true, .ofList (bySignature m o)⟩, c)) ∧
    (∀ fs source (p : ParsedSource) c, p.language ≠ .python ∨
        p.context.aliases = m ∧ ¬ (∃ k ∈ o.classes, k.name ∈ modelNames m o) →
      detect fs source p o c = search [queryStrategy fs source] p o c) ∧
    ∀ fs source p c d, (detect fs source p o c).1 = .ok d →
      (d.found = false → d.positions = .empty) ∧
        ∀ name a b, (name, a, b) ∈ d.positions.table.entries → a < b := by
  refine ⟨exists_modelName_iff, fun hmodel fs source p c hl hm => ?_,
    fun fs source p c hcase => ?_, fun fs source p c d hd => ?_⟩
  · have hsome : ¬ (bySignature m o).isEmpty := by
      rw [List.isEmpty_iff]
      exact bySignature_ne_nil_iff.mpr hmodel
    subst hm
    rw [detect_eq_search, hl, strategies, search_outlineStrategy, if_neg hsome]
  · rw [detect_eq_search]
    cases hl : p.language with
    | typescript => rfl
    | tsx => rfl
    | python =>
      obtain ⟨hm, hnone⟩ := hcase.resolve_left (not_not_intro hl)
      have hempty : (bySignature m o).isEmpty := by
        rw [List.isEmpty_iff]
        exact not_not.mp (mt bySignature_ne_nil_iff.mp hnone)
      subst hm
      rw [strategies, search_outlineStrategy, if_pos hempty]
  · rw [detect_eq_search] at hd
    exact wellFound_search _ p o c hd

/-- The models of an outline are told where the query cannot be compiled and its key is taken. In
another language that is an error. -/
theorem detect_neverMerges_takenKey :
    let m : ImportAliases := ⟨[("pydantic.BaseModel", "Base")]⟩
    let o : Outline := ⟨[⟨"P", ["Base"], [], 2, 2, []⟩, ⟨"Q", ["P"], [], 3, 5, []⟩], []⟩
    let fs : FileSystem :=
      ⟨.directory [("python", .directory [("data_model.scm", .file "(((".toUTF8)])], []⟩
    let source := querySource fs .python (some "/")
    let p : ParsedSource :=
      ⟨.python, .ofString "", ⟨"module", true, none, ⟨0, 0, 0, 0⟩, []⟩, ⟨.python, [], m, []⟩⟩
    let c (l : Language) : QueryCache := ⟨[(queryKey l, ⟨l, [], ⟨[]⟩⟩)], []⟩
    (source.compile? fs .python).toOption.isNone ∧
      detect fs source p o (c .python) = (.ok ⟨true, ⟨⟨[("Q", 3, 5)]⟩⟩⟩, c .python) ∧
      detect fs source { p with language := .tsx } o (c .tsx) =
        (.error (.cacheKeyConflict "tsx:data_model"), c .tsx) ∧
      3 < 5 := by
  intro m o fs source p c
  obtain ⟨hseed, houtline, hquery, hwell⟩ := detect_neverMerges m o
  have hmodel := hseed.mpr ⟨_, List.mem_cons_self, by decide⟩
  have hshown : ModelDetection.mk true (.ofList (bySignature m o)) =
      ⟨true, ⟨⟨[("Q", 3, 5)]⟩⟩⟩ := by decide
  have hpython := (houtline hmodel fs source p (c .python) rfl rfl).trans (by rw [hshown])
  have htsx := hquery fs source { p with language := .tsx } (c .tsx) (.inl (by decide))
  have hspan := (hwell fs source p (c .python) _ (congrArg Prod.fst hpython)).2 "Q" 3 5
    List.mem_cons_self
  have hinvalid : (source.compile? fs .python).toOption.isNone := by decide
  exact ⟨hinvalid, hpython, htsx, hspan⟩

end DataModel

end SourceFacts
