import SourceFacts.Proofs.Engine.SharedCache

/-!
# Analyses, request by request

All that an analysis and a cache have to do with each other are requests for queries, each of
them served in one go. Here an analysis is told as a tree of such requests (`Analysis`): it has a
result, or it asks for queries and goes on with the answer. Run through a cache from beginning to
end, the tree of a file gives what its analysis gives (`Engine.run_fileAnalysis`). But it can also
be held between two requests, while others are served.

`Analysis.result` is what comes out when every query is made anew. Where a cache answers all
requests of an analysis as making anew answers them, the analysis comes out the same
(`Analysis.run_eq_result`).
-/

namespace SourceFacts

/-- A request to a cache. -/
inductive CacheRequest where
  | set (key : String) (l : Language) (sources : List QuerySource)
  | feature (r : FeatureRequest)

namespace CacheRequest

/-- The language that a request is about. -/
def language : CacheRequest → Language
  | .set _ l _ => l
  | .feature r => r.language

/-- What a request is answered with. -/
def Answer : CacheRequest → Type
  | .set _ _ _ => Except ConfigError QuerySet
  | .feature _ => Except ConfigError FeatureQuery

/-- The answer to a request, with the cache that it leaves. -/
def serve (fs : FileSystem) : (r : CacheRequest) → QueryCache → r.Answer × QueryCache
  | .set key l sources, c => c.querySet fs key l sources
  | .feature r, c => r.serve c

/-- The answer to a request, made anew. -/
def compiled (fs : FileSystem) : (r : CacheRequest) → r.Answer
  | .set _ l sources => QuerySet.compile fs l sources
  | .feature r => r.compiled

end CacheRequest

/-- An analysis, as far as a cache can tell: it has a result, or it asks for queries and goes on
with the answer. -/
inductive Analysis (α : Type) : Type where
  | done (result : α)
  | ask (r : CacheRequest) (next : r.Answer → Analysis α)

namespace Analysis

variable {α β : Type} {fs fs' : FileSystem} {asked : CacheRequest → Prop}

/-- One analysis after another. -/
def bind : Analysis α → (α → Analysis β) → Analysis β
  | .done x, f => f x
  | .ask r next, f => .ask r fun answer => (next answer).bind f

/-- The result of an analysis that has a cache for itself from beginning to end, with the cache
that it leaves. -/
def run (fs : FileSystem) : Analysis α → QueryCache → α × QueryCache
  | .done x, c => (x, c)
  | .ask r next, c =>
    let (answer, c) := r.serve fs c
    (next answer).run fs c

/-- The result of an analysis by itself: every query is made anew. -/
def result (fs : FileSystem) : Analysis α → α
  | .done x => x
  | .ask r next => (next (r.compiled fs)).result fs

/-- Whatever the answers are, an analysis makes certain requests only. -/
def AsksOnly (asked : CacheRequest → Prop) : Analysis α → Prop
  | .done _ => True
  | .ask r next => asked r ∧ ∀ answer, (next answer).AsksOnly asked

theorem run_bind (a : Analysis α) (f : α → Analysis β) (c : QueryCache) :
    (a.bind f).run fs c = (f (a.run fs c).1).run fs (a.run fs c).2 := by
  induction a generalizing c with
  | done x => rfl
  | ask r next ih => exact ih (r.serve fs c).1 (r.serve fs c).2

theorem AsksOnly.mono {asked' : CacheRequest → Prop} {a : Analysis α} (ha : a.AsksOnly asked)
    (hsub : ∀ r, asked r → asked' r) : a.AsksOnly asked' := by
  induction a with
  | done x => trivial
  | ask r next ih => exact ⟨hsub r ha.1, fun answer => ih answer (ha.2 answer)⟩

theorem AsksOnly.bind {a : Analysis α} {f : α → Analysis β} (ha : a.AsksOnly asked)
    (hf : ∀ x, (f x).AsksOnly asked) : (a.bind f).AsksOnly asked := by
  induction a with
  | done x => exact hf x
  | ask r next ih => exact ⟨ha.1, fun answer => ih answer (ha.2 answer)⟩

/-- Through caches that answer all requests as making anew answers them, an analysis comes out as
by itself. -/
theorem run_eq_result {own : QueryCache → Prop} {a : Analysis α} {c : QueryCache}
    (hserve : ∀ r c, asked r → own c → (r.serve fs c).1 = r.compiled fs ∧ own (r.serve fs c).2)
    (ha : a.AsksOnly asked) (hc : own c) :
    (a.run fs c).1 = a.result fs ∧ own (a.run fs c).2 := by
  induction a generalizing c with
  | done x => exact ⟨rfl, hc⟩
  | ask r next ih =>
    obtain ⟨hanswer, hafter⟩ := hserve r c ha.1 hc
    have hnext := ih (r.serve fs c).1 (ha.2 _) hafter
    rw [hanswer] at hnext
    simpa only [run, result, hanswer] using hnext

/-- What serving each request keeps, an analysis keeps. -/
theorem run_keeps {keeps : QueryCache → Prop} {a : Analysis α} {c : QueryCache}
    (hserve : ∀ r c, asked r → keeps c → keeps (r.serve fs c).2) (ha : a.AsksOnly asked)
    (hc : keeps c) : keeps (a.run fs c).2 := by
  induction a generalizing c with
  | done x => exact hc
  | ask r next ih => exact ih (r.serve fs c).1 (ha.2 _) (hserve r c ha.1 hc)

/-- Files matter to an analysis through the answers to its requests only. -/
theorem run_congr {a : Analysis α} {c : QueryCache}
    (hfiles : ∀ r, asked r → r.serve fs = r.serve fs') (ha : a.AsksOnly asked) :
    a.run fs c = a.run fs' c := by
  induction a generalizing c with
  | done x => rfl
  | ask r next ih =>
    rw [run, run, hfiles r ha.1]
    exact ih _ (ha.2 _)

end Analysis

/-! ## The parts of an analysis -/

namespace Outline

/-- The outline that the answer to the request for its query tells. -/
def ofAnswer (t : Syntax.SourceText) (root : Syntax.Node)
    (answer : Except ConfigError QuerySet) : Except ConfigError Outline :=
  answer.map fun set =>
    match set.get? "outline" with
    | some q => ofPython q t root
    | none => .empty

/-- The search for an outline. -/
def analysis (l : Language) (t : Syntax.SourceText) (root : Syntax.Node) :
    Analysis (Except ConfigError Outline) :=
  match l with
  | .python => .ask (.set queryKey .python [querySource]) fun answer =>
    .done (ofAnswer t root answer)
  | .typescript | .tsx => .done (.ok .empty)

theorem run_analysis (fs : FileSystem) (l : Language) (t : Syntax.SourceText)
    (root : Syntax.Node) (c : QueryCache) :
    (analysis l t root).run fs c = extract fs l t root c := by
  cases l with
  | python => rw [extract_python]; rfl
  | typescript => rfl
  | tsx => rfl

end Outline

namespace Detector

variable (p : ParsedSource) (templates : TemplateSet)

/-- The detections that the answer to the request for the query of a feature tells. -/
def ofAnswer (f : Feature) (answer : Except ConfigError FeatureQuery) : List Detection :=
  match answer with
  | .ok q => if (locatorOf p.context f).isOpen then detections p (locatorOf p.context f) q else []
  | .error _ => []

/-- The search for the features of a list, one after the other. -/
def analysisAll : List Feature → Analysis (List Detection)
  | [] => .done []
  | f :: rest =>
    if isEligible p.context.expandedImports f then
      .ask (.feature (request p templates f)) fun answer =>
        (analysisAll rest).bind fun others => .done (ofAnswer p f answer ++ others)
    else analysisAll rest

/-- The search for features. -/
def analysis (features : List Feature) : Analysis (List Detection) :=
  (analysisAll p templates features).bind fun found => .done (firstUses [] found)

theorem detectFeature_eq_ofAnswer (f : Feature) (c : QueryCache) :
    detectFeature p templates f c =
      (ofAnswer p f ((request p templates f).serve c).1, ((request p templates f).serve c).2) := by
  have hserve : c.featureQuery p.language templates f = (request p templates f).serve c := rfl
  rw [detectFeature, hserve]
  generalize (request p templates f).serve c = served
  obtain ⟨answer, c'⟩ := served
  cases answer <;> rfl

theorem run_analysisAll (fs : FileSystem) (features : List Feature) (c : QueryCache) :
    (analysisAll p templates features).run fs c =
      detectAll p templates p.context.expandedImports features c := by
  induction features generalizing c with
  | nil => rfl
  | cons f rest ih =>
    by_cases heligible : isEligible p.context.expandedImports f
    · simp only [analysisAll, detectAll, if_pos heligible, Analysis.run, Analysis.run_bind,
        CacheRequest.serve, detectFeature_eq_ofAnswer, ih]
    · simp only [analysisAll, detectAll, if_neg heligible, ih]

theorem run_analysis (fs : FileSystem) (features : List Feature) (c : QueryCache) :
    (analysis p templates features).run fs c = detect p templates features c := by
  rw [analysis, Analysis.run_bind, run_analysisAll]
  rfl

end Detector

namespace Engine

variable (e : Engine)

/-- The search for data models. -/
def modelAnalysis (p : ParsedSource) (o : Outline) : Analysis ModelDetection :=
  match e.modelSource? p.language with
  | none => .done .none
  | some s =>
    if (shownModels p o).isEmpty then
      .ask (.set (DataModel.queryKey p.language) p.language [s]) fun answer =>
        .done (modelsOf p answer)
    else .done (DataModel.detectionOf (shownModels p o))

theorem run_modelAnalysis (fs : FileSystem) (p : ParsedSource) (o : Outline) (c : QueryCache) :
    (e.modelAnalysis p o).run fs c = e.dataModels fs p o c := by
  rw [dataModels_eq, modelAnalysis]
  cases e.modelSource? p.language with
  | none => rfl
  | some s => by_cases hshown : (shownModels p o).isEmpty <;> simp only [hshown] <;> rfl

/-- The analysis of a text. -/
def textAnalysis (templates : TemplateSet) (path : String) (l : Language) (text : String) :
    Analysis (Except EngineError FileFacts) :=
  let p := ParsedSource.ofText l text
  (Outline.analysis l p.text p.root).bind fun
    | .error fault => .done (.error (.config fault))
    | .ok outline =>
      (Detector.analysis p templates (e.catalog.features l)).bind fun detections =>
        (e.modelAnalysis p outline).bind fun dataModels =>
          .done (.ok { path, language := l, context := p.context, detections, dataModels
                       outline := outline.inCallOrder })

/-- The analysis of a source. -/
def sourceAnalysis (path : String) (l : Language) (content : ByteArray) :
    Analysis (Except EngineError FileFacts) :=
  match textOf path content with
  | .error fault => .done (.error fault)
  | .ok text =>
    match e.templates l.family with
    | .error fault => .done (.error (.config fault))
    | .ok templates => e.textAnalysis templates path l text

/-- The analysis of a file, which has been read. -/
def fileAnalysis (fs : FileSystem) (path : String) : Analysis (Except EngineError FileFacts) :=
  match (Path.extension? path).bind Language.ofExtension? with
  | none => .done (.error (.config (.unsupportedLanguage path)))
  | some l =>
    match contentOf fs path with
    | .error fault => .done (.error fault)
    | .ok content => e.sourceAnalysis path l content

theorem run_textAnalysis (fs : FileSystem) (templates : TemplateSet) (path : String)
    (l : Language) (text : String) (c : QueryCache) :
    (e.textAnalysis templates path l text).run fs c =
      e.factsOfText fs templates path l text c := by
  let p := ParsedSource.ofText l text
  rw [textAnalysis, factsOfText, Analysis.run_bind, Outline.run_analysis]
  generalize Outline.extract fs l p.text p.root c = extracted
  obtain ⟨outline, c'⟩ := extracted
  cases outline with
  | error fault => rfl
  | ok outline =>
    simp only [Analysis.run_bind, Detector.run_analysis, run_modelAnalysis]
    rfl

theorem run_sourceAnalysis (fs : FileSystem) (path : String) (l : Language)
    (content : ByteArray) (c : QueryCache) :
    (e.sourceAnalysis path l content).run fs c = e.analyzeSource fs path l content c := by
  rw [sourceAnalysis, analyzeSource]
  cases textOf path content with
  | error fault => rfl
  | ok text =>
    cases e.templates l.family with
    | error fault => rfl
    | ok templates => exact e.run_textAnalysis fs templates path l text c

theorem run_fileAnalysis (fs : FileSystem) (path : String) (c : QueryCache) :
    (e.fileAnalysis fs path).run fs c = e.analyzeFile fs path c := by
  rw [fileAnalysis, analyzeFile]
  cases (Path.extension? path).bind Language.ofExtension? with
  | none => rfl
  | some l =>
    cases contentOf fs path with
    | error fault => rfl
    | ok content => exact e.run_sourceAnalysis fs path l content c

end Engine

end SourceFacts
