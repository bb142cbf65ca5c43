import SourceFacts.Proofs.Detector.FirstUses
import SourceFacts.Proofs.QueryCache.Keeping

/-!
# What is detected

A feature is sought in a file if the file could use it, its query can be compiled and its
strategy leaves something that a match could go back to (`Sought`). What is detected are the
detections of the features that are sought, one feature after the other and in the order of
matches, less those that repeat a use (`detect_eq_firstOfEach`).

All features are run through one cache. `detectAll_eq` does away with it: as long as the cache
keeps the queries of requests that digests tell apart, each feature contributes what it
contributes by itself.
-/

namespace SourceFacts.Detector

/-- The request for the query of a feature in a file. -/
def request (p : ParsedSource) (templates : TemplateSet) (f : Feature) : FeatureRequest :=
  ⟨p.language, templates, f⟩

/-- The local spellings of the paths of a feature, each once. -/
def referencesOf (c : SourceContext) (f : Feature) : List String :=
  (f.paths.flatMap c.aliases.localReferences).eraseDups

/-- A feature is sought in a file, with a query: one of its paths is imported, or contains what
is; the query is what its template compiles to; and it goes back to imports directly or there is
a variable that it could go back through. -/
structure Sought (p : ParsedSource) (templates : TemplateSet) (f : Feature) (q : FeatureQuery) :
    Prop where
  eligible : ∃ path ∈ f.paths, path ∈ p.context.expandedImports
  compiled : FeatureQuery.compile p.language templates f = .ok q
  locatable : f.strategy = .direct ∨ p.context.boundVariables (referencesOf p.context f) ≠ []

/-- The query with which a feature is sought, if it is. -/
def soughtWith? (p : ParsedSource) (templates : TemplateSet) (f : Feature) :
    Option FeatureQuery :=
  if f.paths.any p.context.expandedImports.contains &&
      (f.strategy == .direct ||
        !(p.context.boundVariables (referencesOf p.context f)).isEmpty) then
    (FeatureQuery.compile p.language templates f).toOption
  else none

/-- The detections of all features that are sought, each by itself, one after the other and in
the order of matches. -/
def occurrences (p : ParsedSource) (templates : TemplateSet) (features : List Feature) :
    List Detection :=
  features.flatMap fun f =>
    match soughtWith? p templates f with
    | some q =>
      (q.query.matchesOf p.text p.root).filterMap (detection? p (locatorOf p.context f) q)
    | none => []

variable {p : ParsedSource} {templates : TemplateSet} {f : Feature} {features : List Feature}
variable {q : FeatureQuery} {c : QueryCache} {rs : List FeatureRequest} {d : Detection}

/-! ## Features that are sought -/

theorem strategy_eq_direct_iff : (f.strategy == .direct) = true ↔ f.strategy = .direct := by
  cases f.strategy <;> decide

theorem isOpen_locatorOf : (locatorOf p.context f).isOpen = (f.strategy == .direct ||
    !(p.context.boundVariables (referencesOf p.context f)).isEmpty) := by
  cases hstrategy : f.strategy with
  | variableBound => simp only [Locator.isOpen, locatorOf, referencesOf, hstrategy]
  | direct =>
    have hdirect : (LocatorStrategy.direct == LocatorStrategy.direct) = true := rfl
    simp [Locator.isOpen, locatorOf, hstrategy, hdirect]

theorem soughtWith?_eq : soughtWith? p templates f =
    if isEligible p.context.expandedImports f && (locatorOf p.context f).isOpen then
      (FeatureQuery.compile p.language templates f).toOption
    else none := by
  rw [isOpen_locatorOf]
  rfl

theorem toOption_eq_some_iff {ε α : Type} {x : Except ε α} {a : α} :
    x.toOption = some a ↔ x = .ok a := by
  cases x <;> simp [Except.toOption]

theorem soughtWith?_eq_some_iff : soughtWith? p templates f = some q ↔ Sought p templates f q := by
  rw [soughtWith?, Option.ite_none_right_eq_some, toOption_eq_some_iff, Bool.and_eq_true,
    Bool.or_eq_true, strategy_eq_direct_iff]
  simp only [List.any_eq_true, List.contains_iff_mem, Bool.not_eq_true', List.isEmpty_eq_false_iff]
  constructor
  · rintro ⟨⟨heligible, hlocatable⟩, hq⟩
    exact ⟨heligible, hq, hlocatable⟩
  · rintro ⟨heligible, hq, hlocatable⟩
    exact ⟨⟨heligible, hlocatable⟩, hq⟩

theorem mem_occurrences : d ∈ occurrences p templates features ↔
    ∃ f ∈ features, ∃ q, Sought p templates f q ∧ ∃ m ∈ q.query.matchesOf p.text p.root,
      detection? p (locatorOf p.context f) q m = some d := by
  simp only [occurrences, List.mem_flatMap]
  constructor
  · rintro ⟨f, hf, hd⟩
    split at hd
    · rename_i q hq
      exact ⟨f, hf, q, soughtWith?_eq_some_iff.mp hq, List.mem_filterMap.mp hd⟩
    · cases hd
  · rintro ⟨f, hf, q, hq, hd⟩
    refine ⟨f, hf, ?_⟩
    rw [soughtWith?_eq_some_iff.mpr hq]
    exact List.mem_filterMap.mpr hd

@[simp] theorem occurrences_append (xs ys : List Feature) :
    occurrences p templates (xs ++ ys) =
      occurrences p templates xs ++ occurrences p templates ys :=
  List.flatMap_append

/-- Only the features that are sought contribute. -/
theorem occurrences_filter (features : List Feature) :
    occurrences p templates (features.filter fun f => (soughtWith? p templates f).isSome) =
      occurrences p templates features := by
  induction features with
  | nil => rfl
  | cons f features ih =>
    cases hf : soughtWith? p templates f with
    | none => simpa [occurrences, hf] using ih
    | some q => simpa [occurrences, hf] using ih

/-! ## One cache for all -/

/-- A feature that the file could use contributes through the cache what it does by itself. -/
theorem detectFeature_eq (hc : c.Keeps rs) (hrs : FeatureRequest.NoCollision rs)
    (hmem : request p templates f ∈ rs) (heligible : isEligible p.context.expandedImports f) :
    (detectFeature p templates f c).1 = occurrences p templates [f] ∧
      (detectFeature p templates f c).2 = ((request p templates f).serve c).2 := by
  have hserve : c.featureQuery p.language templates f = (request p templates f).serve c := rfl
  have hanswer : ((request p templates f).serve c).1 =
      FeatureQuery.compile p.language templates f := (hc.serve hrs hmem).1
  rw [detectFeature, hserve]
  generalize (request p templates f).serve c = result at hanswer
  obtain ⟨answer, c'⟩ := result
  obtain rfl : answer = FeatureQuery.compile p.language templates f := hanswer
  cases hq : FeatureQuery.compile p.language templates f with
  | error e => simp [occurrences, soughtWith?_eq, hq, Except.toOption]
  | ok q =>
    by_cases hopen : (locatorOf p.context f).isOpen
    · simp [occurrences, soughtWith?_eq, hq, Except.toOption, heligible, hopen, detections]
    · simp [occurrences, soughtWith?_eq, hopen]

/-- The features of a list contribute through the cache what each does by itself, and the cache
goes on keeping. -/
theorem detectAll_eq (hc : c.Keeps rs) (hrs : FeatureRequest.NoCollision rs)
    (hmem : ∀ f ∈ features, request p templates f ∈ rs) :
    let result := detectAll p templates p.context.expandedImports features c
    result.1 = occurrences p templates features ∧ result.2.Keeps rs := by
  induction features generalizing c with
  | nil => exact ⟨rfl, hc⟩
  | cons f features ih =>
    have hrest : ∀ g ∈ features, request p templates g ∈ rs :=
      fun g hg => hmem g (List.mem_cons_of_mem f hg)
    have hsplit : occurrences p templates (f :: features) =
        occurrences p templates [f] ++ occurrences p templates features :=
      occurrences_append [f] features
    rw [hsplit, detectAll]
    -- The rest is served by the cache that the first feature leaves, which still keeps.
    by_cases heligible : isEligible p.context.expandedImports f
    · have hf := hmem f List.mem_cons_self
      obtain ⟨hfound, hcache⟩ := detectFeature_eq hc hrs hf heligible
      obtain ⟨hothers, hkeeps⟩ := ih (hc.serve hrs hf).2 hrest
      rw [if_pos heligible]
      simp only [hfound, hcache, hothers, true_and]
      exact hkeeps
    · have hnone : occurrences p templates [f] = [] := by
        simp [occurrences, soughtWith?_eq, heligible]
      rw [if_neg heligible, hnone, List.nil_append]
      exact ih hc hrest

theorem detect_eq (hc : c.Keeps rs) (hrs : FeatureRequest.NoCollision rs)
    (hmem : ∀ f ∈ features, request p templates f ∈ rs) :
    (detect p templates features c).1 = firstUses [] (occurrences p templates features) ∧
      (detect p templates features c).2.Keeps rs := by
  obtain ⟨hfound, hkeeps⟩ := detectAll_eq hc hrs hmem
  exact ⟨congrArg (firstUses []) hfound, hkeeps⟩

/-- The sets of queries in a cache are left alone. -/
theorem sets_detect (p : ParsedSource) (templates : TemplateSet) (features : List Feature)
    (c : QueryCache) : (detect p templates features c).2.sets = c.sets := by
  have hfeature : ∀ f c, (detectFeature p templates f c).2.sets = c.sets := by
    intro f c
    have hserve : ((request p templates f).serve c).2.sets = c.sets :=
      FeatureRequest.sets_serve _ c
    have hquery : c.featureQuery p.language templates f = (request p templates f).serve c := rfl
    rw [detectFeature, hquery]
    generalize (request p templates f).serve c = result at hserve
    obtain ⟨answer, c'⟩ := result
    cases answer <;> exact hserve
  have hall : ∀ c, (detectAll p templates p.context.expandedImports features c).2.sets =
      c.sets := by
    induction features with
    | nil => exact fun _ => rfl
    | cons f features ih =>
      intro c
      rw [detectAll]
      split
      · exact (ih _).trans (hfeature f c)
      · exact ih c
  exact hall c

/-! ## What is detected -/

/-- What is detected does not repeat, and has the uses that the features sought have. -/
theorem mem_uses_detect (hc : c.Keeps rs) (hrs : FeatureRequest.NoCollision rs)
    (hmem : ∀ f ∈ features, request p templates f ∈ rs) {u : Use} :
    u ∈ uses (detect p templates features c).1 ↔ u ∈ uses (occurrences p templates features) := by
  rw [(detect_eq hc hrs hmem).1, mem_uses_firstUses]
  simp

/-- The order of features does not matter for which uses are detected. -/
theorem mem_uses_detect_perm {other : List Feature} (hc : c.Keeps rs)
    (hrs : FeatureRequest.NoCollision rs) (hmem : ∀ f ∈ features, request p templates f ∈ rs)
    (hperm : other.Perm features) {u : Use} :
    u ∈ uses (detect p templates other c).1 ↔ u ∈ uses (detect p templates features c).1 := by
  rw [mem_uses_detect hc hrs hmem, mem_uses_detect hc hrs fun f hf => hmem f (hperm.mem_iff.mp hf)]
  exact ((hperm.flatMap_right _).map Detection.useKey).mem_iff

/-- **What is detected.** Through any cache that keeps the queries of earlier requests, the
features of a list give the detections of those among them that are sought, in order, each use
once and by its first detection. So no use comes twice, every match that is accepted shows by its
use, a second list adds to a first what it gives by itself and the first does not have, features
that are not sought can be left out, and the order of features does not change which uses there
are. -/
theorem detect_eq_firstOfEach (p : ParsedSource) (templates : TemplateSet)
    (features : List Feature) (c : QueryCache) (rs : List FeatureRequest) (hc : c.Keeps rs)
    (hrs : FeatureRequest.NoCollision (rs ++ features.map (request p templates))) :
    let found (fs : List Feature) := (detect p templates fs c).1
    found features = firstOfEach (occurrences p templates features) ∧
    (uses (found features)).Nodup ∧
    (∀ f ∈ features, ∀ q, Sought p templates f q → ∀ m ∈ q.query.matchesOf p.text p.root,
      ∀ d, detection? p (locatorOf p.context f) q m = some d →
        d.useKey ∈ uses (found features)) ∧
    (∀ front back, features = front ++ back → found features =
      found front ++ (found back).filter fun d => !(uses (found front)).contains d.useKey) ∧
    (∀ fewer, fewer.Sublist features →
      (fewer.filter fun f => (soughtWith? p templates f).isSome) =
        (features.filter fun f => (soughtWith? p templates f).isSome) →
      found fewer = found features) ∧
    ∀ other, other.Perm features → ∀ u, u ∈ uses (found other) ↔ u ∈ uses (found features) := by
  intro found
  -- A feature of the list may share its key with an earlier request, so both are taken together.
  have hkeeps := hc.mono (List.subset_append_left rs (features.map (request p templates)))
  have hmem : ∀ f ∈ features, request p templates f ∈ rs ++ features.map (request p templates) :=
    fun f hf => List.mem_append_right rs (List.mem_map_of_mem hf)
  have hfound : ∀ fs ⊆ features, found fs = firstUses [] (occurrences p templates fs) :=
    fun fs hfs => (detect_eq hkeeps hrs fun f hf => hmem f (hfs hf)).1
  have hall := hfound features (List.Subset.refl features)
  refine ⟨?_, ?_, ?_, ?_, ?_, ?_⟩
  · rw [hall, firstUses_eq_firstOfEach]
  · rw [hall]
    exact nodup_uses_firstUses [] _
  · intro f hf q hq m hm d hd
    refine (mem_uses_detect hkeeps hrs hmem).mpr (mem_uses_of_mem ?_)
    exact mem_occurrences.mpr ⟨f, hf, q, hq, m, hm, hd⟩
  · intro front back heq
    have hfront := hfound front (heq ▸ List.subset_append_left front back)
    have hback := hfound back (heq ▸ List.subset_append_right front back)
    rw [hall, hfront, hback, heq, occurrences_append, firstUses_append]
  · intro fewer hsub hsought
    rw [hall, hfound fewer hsub.subset, ← occurrences_filter fewer, hsought, occurrences_filter]
  · intro other hperm u
    exact mem_uses_detect_perm hkeeps hrs hmem hperm

theorem detect_eq_firstOfEach_twice :
    let callee : Syntax.Node := ⟨"identifier", true, some "function", ⟨0, 7, 0, 0⟩, []⟩
    let arguments : Syntax.Node := ⟨"argument_list", true, some "arguments", ⟨7, 9, 0, 0⟩, []⟩
    let p : ParsedSource :=
      { language := .python, text := .ofString "FastAPI()"
        root := ⟨"call", true, none, ⟨0, 9, 0, 0⟩, [callee, arguments]⟩
        context := ⟨.python, ["fastapi.FastAPI"], ⟨[("fastapi.FastAPI", "FastAPI")]⟩, []⟩ }
    let templates : TemplateSet :=
      { family := "python", decoratorClass := "", decoratorFunction := ""
        callExpression := "(_ (_) @callee) @target", inheritance := "" }
    let f : Feature :=
      { key := "app", library := "fastapi", paths := ["fastapi.FastAPI"], target := .function
        concept := .call, strategy := .direct, constructs := none, description := ""
        startpoint := false }
    let features : List Feature := [f, { f with description := "An application." }]
    let r := request p templates f
    let c := (r.serve .empty).2
    c.Keeps [r] ∧ FeatureRequest.NoCollision ([r] ++ features.map (request p templates)) ∧
      (occurrences p templates features).length = 2 ∧
      (detect p templates features c).1 = firstOfEach (occurrences p templates features) := by
  intro callee arguments p templates f features r c
  have hrs : FeatureRequest.NoCollision ([r] ++ features.map (request p templates)) :=
    .of_alike r fun r' hr' => by
      obtain rfl | rfl | rfl : r' = r ∨ r' = request p templates f ∨ r' = request p templates
        { f with description := "An application." } := by simpa [features] using hr'
      all_goals exact ⟨rfl, rfl⟩
  have hc : c.Keeps [r] := ((QueryCache.keeps_empty [r]).serve (hrs.mono (by simp)) (by simp)).2
  exact ⟨hc, hrs, by decide +kernel, (detect_eq_firstOfEach p templates features c [r] hc hrs).1⟩

end SourceFacts.Detector
