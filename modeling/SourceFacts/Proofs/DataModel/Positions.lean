import SourceFacts.Proofs.DataModel.Strategies
import SourceFacts.Proofs.Detector.Reference
import SourceFacts.Proofs.Outline.Query

/-!
# Positions of data models

A position is that of the first model of a name that stands on more than one line, whatever else
has the name (`ModelPositions.get?_ofList`). So it is for the models of an outline. The query keeps
the first model of each name before positions are taken (`named_firstOfName`): where that one
stands on a single line, it hides all others of its name (`detect_positions`,
`detect_positions_ne`).
-/

namespace SourceFacts

namespace DataModel

/-- The lines of a model, if it stands on more than one. -/
def lines? (d : Model) : Option (Nat × Nat) :=
  if d.2.1 = d.2.2 then none else some (min d.2.1 d.2.2, max d.2.1 d.2.2)

/-- The models of a name, in order. -/
def named (n : String) (models : List Model) : List Model := models.filter (·.1 == n)

/-- All models that the matches of a query show. -/
def shownBy (q : Query) (p : ParsedSource) : List Model :=
  (q.matchesOf p.text p.root).filterMap (modelOf? p.text q)

/-- All models that the query for data models shows, if the set has one. -/
def shownIn (set : QuerySet) (p : ParsedSource) : List Model :=
  match set.get? "data_model" with
  | some q => shownBy q p
  | none => []

theorem lines?_eq_none_iff {d : Model} : lines? d = none ↔ d.2.1 = d.2.2 := by
  simp [lines?]

theorem named_cons (n : String) (d : Model) (models : List Model) :
    named n (d :: models) = if d.1 = n then d :: named n models else named n models := by
  simp [named, List.filter_cons]

end DataModel

namespace ModelPositions

open DataModel

theorem get?_insert (p : ModelPositions) (d : Model) (n : String) :
    (p.insert d.1 d.2.1 d.2.2).get? n =
      (p.get? n).or (if d.1 = n then lines? d else none) := by
  have hhas : p.table.has d.1 = (p.get? d.1).isSome := (Table.isSome_get? p.table d.1).symm
  by_cases hn : d.1 = n
  · subst hn
    rw [if_pos rfl, insert, hhas, lines?]
    by_cases hline : d.2.1 = d.2.2
    · simp [hline]
    · cases hold : p.get? d.1 with
      | some old => simp [hold]
      | none => simp [hline, get?, Table.get?_set]
  · rw [if_neg hn, Option.or_none, insert]
    split
    · rfl
    · exact (Table.get?_set _ _ _ _).trans (if_neg (Ne.symm hn))

theorem get?_ofList (models : List Model) (n : String) :
    (ofList models).get? n = (named n models).findSome? lines? := by
  have hfold : ∀ p : ModelPositions,
      (models.foldl (fun p d => p.insert d.1 d.2.1 d.2.2) p).get? n =
        (p.get? n).or ((named n models).findSome? lines?) := by
    induction models with
    | nil => exact fun p => Option.or_none.symm
    | cons d rest ih =>
      intro p
      rw [List.foldl_cons, ih, get?_insert, Option.or_assoc, named_cons]
      split
      · rw [List.findSome?_cons]
        cases lines? d <;> rfl
      · rw [Option.none_or]
  exact (hfold empty).trans Option.none_or

end ModelPositions

namespace DataModel

variable {fs : FileSystem} {source : QuerySource} {p : ParsedSource} {o : Outline}
variable {c : QueryCache} {d : ModelDetection} {models : List Model} {seen : List String}

/-- Of the models of a name the first is kept, unless the name has been met. -/
theorem named_firstOfName (n : String) :
    named n (firstOfName seen models) =
      if n ∈ seen then [] else (named n models).head?.toList := by
  induction models generalizing seen with
  | nil => simp [firstOfName, named]
  | cons d rest ih =>
    unfold firstOfName
    by_cases hseen : d.1 ∈ seen
    · rw [if_pos (List.contains_iff_mem.mpr hseen), ih, named_cons]
      by_cases hn : n ∈ seen
      · rw [if_pos hn, if_pos hn]
      · have hname : d.1 ≠ n := by
          rintro rfl
          exact hn hseen
        rw [if_neg hn, if_neg hn, if_neg hname]
    · rw [if_neg (by simpa using hseen), named_cons, named_cons, ih]
      by_cases hname : d.1 = n
      · subst hname
        simp [hseen]
      · simp [hname, Ne.symm hname]

theorem positions_detectionOf (models : List Model) :
    (detectionOf models).positions = .ofList models := by
  unfold detectionOf
  split
  · rename_i hempty
    rw [List.isEmpty_iff.mp hempty]
    rfl
  · rfl

/-- A position by the query is that of the first model of the name. -/
theorem get?_byQuery (q : Query) (p : ParsedSource) (n : String) :
    (ModelPositions.ofList (byQuery q p)).get? n = (named n (shownBy q p)).head?.bind lines? := by
  have hkept : named n (byQuery q p) = (named n (shownBy q p)).head?.toList :=
    (named_firstOfName n).trans (if_neg List.not_mem_nil)
  rw [ModelPositions.get?_ofList, hkept]
  cases (named n (shownBy q p)).head? with
  | none => rfl
  | some first => cases hlines : lines? first <;> simp [hlines]

/-- The first of some models has the position among them that counts if and only if it stands on
more than one line or none does. -/
theorem head?_bind_lines?_eq_iff :
    models.head?.bind lines? = models.findSome? lines? ↔
      (models.head?.bind lines?).isSome ∨ ∀ d ∈ models, d.2.1 = d.2.2 := by
  cases models with
  | nil => simp
  | cons first rest =>
    cases hfirst : lines? first with
    | some lines => simp [hfirst]
    | none =>
      have hline := lines?_eq_none_iff.mp hfirst
      simp [hfirst, hline, eq_comm (a := none), lines?_eq_none_iff]

/-- What the query finds has the positions of the first models of their names. -/
theorem get?_search_queryStrategy (h : (search [queryStrategy fs source] p o c).1 = .ok d) :
    ∃ set, (c.querySet fs (queryKey p.language) p.language [source]).1 = .ok set ∧
      ∀ n, d.positions.get? n = (named n (shownIn set p)).head?.bind lines? := by
  rw [search_queryStrategy] at h
  cases hset : (c.querySet fs (queryKey p.language) p.language [source]).1 with
  | error e =>
    simp only [hset] at h
    cases h
  | ok set =>
    simp only [hset] at h
    obtain rfl := Except.ok.inj h
    refine ⟨set, rfl, fun n => ?_⟩
    dsimp only
    rw [shownIn]
    cases set.get? "data_model" with
    | none => rfl
    | some q => exact (congrArg (·.get? n) (positions_detectionOf _)).trans (get?_byQuery q p n)

/-- What is found comes from the outline of a Python file, or else from the query. -/
theorem detect_cases (h : (detect fs source p o c).1 = .ok d) :
    (p.language = .python ∧ bySignature p.context.aliases o ≠ [] ∧
      d.positions = .ofList (bySignature p.context.aliases o)) ∨
    ((p.language = .python → bySignature p.context.aliases o = []) ∧
      ∃ set, (c.querySet fs (queryKey p.language) p.language [source]).1 = .ok set ∧
        ∀ n, d.positions.get? n = (named n (shownIn set p)).head?.bind lines?) := by
  rw [detect_eq_search] at h
  by_cases hl : p.language = .python
  · rw [hl, strategies, search_outlineStrategy] at h
    split at h
    case isTrue hnone =>
      exact .inr ⟨fun _ => List.isEmpty_iff.mp hnone, get?_search_queryStrategy h⟩
    case isFalse hsome =>
      obtain rfl := Except.ok.inj h
      exact .inl ⟨hl, fun hnone => hsome (List.isEmpty_iff.mpr hnone), rfl⟩
  · have hways : strategies fs source p.language = [queryStrategy fs source] := by
      cases hlang : p.language with
      | python => exact absurd hlang hl
      | typescript => rfl
      | tsx => rfl
    rw [hways] at h
    exact .inr ⟨fun hpython => absurd hpython hl, get?_search_queryStrategy h⟩

theorem exists_detect_ok {set : QuerySet}
    (h : (c.querySet fs (queryKey p.language) p.language [source]).1 = .ok set) :
    ∃ d, (detect fs source p o c).1 = .ok d := by
  unfold detect
  generalize (if p.language = .python then bySignature p.context.aliases o else []) = shown
  cases shown with
  | nil => exact ⟨_, congrArg (Except.map _) h⟩
  | cons first rest => exact ⟨_, rfl⟩

/-- **Positions of data models.** Where the outline tells the models of a file, the position of a
name is that of the first of its models on more than one line, and there is none only if all of
them stand on a single line. Where the query does, it is that of the first model of the name, so
there is none if that one stands on a single line, and the position is that of the first model on
more than one line only if that is the first of all, or if there is none. -/
theorem detect_positions (h : (detect fs source p o c).1 = .ok d) :
    (p.language = .python ∧ bySignature p.context.aliases o ≠ [] ∧ ∀ n,
      let models := named n (bySignature p.context.aliases o)
      d.positions.get? n = models.findSome? lines? ∧
        (d.positions.get? n = none ↔ ∀ e ∈ models, e.2.1 = e.2.2)) ∨
    ((p.language = .python → bySignature p.context.aliases o = []) ∧
      ∃ set, (c.querySet fs (queryKey p.language) p.language [source]).1 = .ok set ∧ ∀ n,
        let models := named n (shownIn set p)
        d.positions.get? n = models.head?.bind lines? ∧
          (d.positions.get? n = models.findSome? lines? ↔
            (models.head?.bind lines?).isSome ∨ ∀ e ∈ models, e.2.1 = e.2.2)) := by
  rcases detect_cases h with ⟨hl, hsome, hpositions⟩ | ⟨hnone, set, hset, hpositions⟩
  · refine .inl ⟨hl, hsome, fun n => ?_⟩
    have hget : d.positions.get? n =
        (named n (bySignature p.context.aliases o)).findSome? lines? := by
      rw [hpositions, ModelPositions.get?_ofList]
    refine ⟨hget, ?_⟩
    rw [hget, List.findSome?_eq_none_iff]
    simp only [lines?_eq_none_iff]
  · refine .inr ⟨hnone, set, hset, fun n => ⟨hpositions n, ?_⟩⟩
    rw [hpositions n]
    exact head?_bind_lines?_eq_iff

/-- A model on a single line before another one of its name. -/
theorem detect_positions_singleLine :
    let m : ImportAliases := ⟨[("pydantic.BaseModel", "BaseModel")]⟩
    let o : Outline :=
      ⟨[⟨"A", ["BaseModel"], [], 2, 2, []⟩, ⟨"A", ["BaseModel"], [], 3, 4, []⟩], []⟩
    let p : ParsedSource :=
      ⟨.python, .ofString "", ⟨"module", true, none, ⟨0, 0, 0, 0⟩, []⟩, ⟨.python, [], m, []⟩⟩
    let fs : FileSystem := ⟨.empty, []⟩
    let source := querySource fs .python none
    ∃ d, (detect fs source p o .empty).1 = .ok d ∧ d.positions.get? "A" = some (3, 4) := by
  intro m o p fs source
  have hmodels : bySignature m o = [("A", 2, 2), ("A", 3, 4)] := by decide
  obtain ⟨d, hd⟩ : ∃ d, (detect fs source p o .empty).1 = .ok d := by
    rw [detect, if_pos rfl]
    exact ⟨_, congrArg Prod.fst (if_pos (by simp [p, hmodels]))⟩
  refine ⟨d, hd, ?_⟩
  rcases detect_positions hd with ⟨-, -, hpositions⟩ | ⟨hnone, -⟩
  · rw [(hpositions "A").1]
    simp only [p, hmodels]
    decide
  · exact absurd (hmodels.symm.trans (hnone rfl)) (List.cons_ne_nil _ _)

/-- What `(class_definition name: (identifier) @model_name) @model` is compiled to. -/
def anyClass : Query where
  steps := #[
    { Query.Step.plain (.kind "class_definition" true) (some 0) false with
      captures := [1], splits := true },
    { Query.Step.plain (.kind "identifier" true) (some 1) false with
      role := some "name", captures := [0], splits := true },
    .finish]
  entries := [⟨0, 0⟩]
  predicates := #[[]]
  captureNames := #["model_name", "model"]

/-- By a query for all classes, a class on a single line hides the one below it. -/
theorem detect_positions_ne :
    let node (kind : String) (role : Option String) (span : Syntax.Span)
        (children : List Syntax.Node) : Syntax.Node := ⟨kind, true, role, span, children⟩
    let text := "class A: x = 1\nclass A:\n    y = 1\n"
    let root := node "module" none ⟨0, 33, 0, 2⟩ [
      node "class_definition" none ⟨0, 14, 0, 0⟩ [
        node "identifier" (some "name") ⟨6, 7, 0, 0⟩ [],
        node "block" (some "body") ⟨9, 14, 0, 0⟩ []],
      node "class_definition" none ⟨15, 33, 1, 2⟩ [
        node "identifier" (some "name") ⟨21, 22, 1, 1⟩ [],
        node "block" (some "body") ⟨28, 33, 2, 2⟩ []]]
    let p : ParsedSource := ⟨.python, .ofString text, root, ⟨.python, [], .empty, []⟩⟩
    let o : Outline := ⟨[⟨"A", [], [], 1, 1, []⟩, ⟨"A", [], [], 2, 3, []⟩], []⟩
    let fs : FileSystem := ⟨.directory [("python", .directory [("data_model.scm",
      .file "(class_definition name: (identifier) @model_name) @model".toUTF8)])], []⟩
    let source := querySource fs .python (some "/")
    ∃ set d, (QueryCache.empty.querySet fs (queryKey .python) .python [source]).1 = .ok set ∧
      (detect fs source p o .empty).1 = .ok d ∧ d.positions.get? "A" = none ∧
      (named "A" (shownIn set p)).findSome? lines? = some (2, 3) := by
  intro node text root p o fs source
  let file : QuerySource := ⟨"data_model", .file "/python/data_model.scm", false⟩
  have hsource : source = file := by decide
  have htext : file.text? fs =
      .ok (some "(class_definition name: (identifier) @model_name) @model") :=
    Detector.toOption_eq_some_iff.mp (by decide)
  have hwords : Query.ofText Language.python.vocabulary
      "(class_definition name: (identifier) @model_name) @model" = .ok anyClass :=
    Query.ofText_mono Outline.queryWords_le (Query.ofText_of_readsAs (by decide +kernel))
  have hread : FeatureQuery.readQuery .python "data_model"
      "(class_definition name: (identifier) @model_name) @model" = .ok anyClass := by
    rw [FeatureQuery.readQuery, hwords]
  let set : QuerySet := ⟨[("data_model", anyClass)]⟩
  have hcompiles : QuerySet.compile fs .python [file] = .ok set :=
    QuerySet.compile_singleton htext hread
  have hfree : QueryCache.empty.bound? (queryKey .python) = none := rfl
  have hset : (QueryCache.empty.querySet fs (queryKey .python) .python [file]).1 = .ok set := by
    simp only [QueryCache.querySet, hfree, hcompiles]
  have houtline : bySignature p.context.aliases o = [] := by decide
  have hshown : named "A" (shownIn set p) = [("A", 1, 1), ("A", 2, 3)] := by decide +kernel
  obtain ⟨d, hd⟩ : ∃ d, (detect fs file p o .empty).1 = .ok d := exists_detect_ok hset
  rw [hsource]
  refine ⟨set, d, hset, hd, ?_, by rw [hshown]; rfl⟩
  rcases detect_cases hd with ⟨-, hsome, -⟩ | ⟨-, set', hset', hpositions⟩
  · exact absurd houtline hsome
  · obtain rfl : set = set' := Except.ok.inj (hset.symm.trans hset')
    rw [hpositions "A", hshown]
    rfl

end DataModel

end SourceFacts
