import SourceFacts.Proofs.Engine.Requests

/-!
# Caches of an engine's own

An engine asks for few things: the outline, its own queries for data models and the queries of
its features (`Engine.Asks`). A cache that was asked for nothing else (`Engine.OwnCache`) answers
all of these as making anew answers them, and is one of the kind afterwards
(`Engine.OwnCache.serve`). So an analysis that has such a cache for itself comes out as without
one (`Engine.OwnCache.run`).

Of the files, requests read the queries for data models only. While these stay as they are, others
may change (`Engine.SameQueries.serve`).
-/

namespace SourceFacts

variable {α : Type} {e : Engine} {fs fs' : FileSystem} {c : QueryCache} {l : Language}

/-! ## What an engine asks for -/

/-- The requests that an engine makes. -/
inductive Engine.Asks (e : Engine) : CacheRequest → Prop
  | outline : e.Asks (.set Outline.queryKey .python [Outline.querySource])
  | models {l : Language} {s : QuerySource} (h : e.modelSource? l = some s) :
      e.Asks (.set (DataModel.queryKey l) l [s])
  | feature {l : Language} {r : FeatureRequest} (h : r ∈ e.requests l) : e.Asks (.feature r)

theorem Detector.asksOnly_analysis {asked : CacheRequest → Prop} {p : ParsedSource}
    {templates : TemplateSet} {features : List Feature}
    (h : ∀ f ∈ features, asked (.feature (request p templates f))) :
    (analysis p templates features).AsksOnly asked := by
  have hall : (analysisAll p templates features).AsksOnly asked := by
    induction features with
    | nil => trivial
    | cons f rest ih =>
      have hrest := ih fun g hg => h g (List.mem_cons_of_mem f hg)
      rw [analysisAll]
      split
      · exact ⟨h f List.mem_cons_self, fun answer => hrest.bind fun others => trivial⟩
      · exact hrest
  exact hall.bind fun found => trivial

namespace Engine

/-- The requests that an engine makes about sources in a language. -/
def AsksAbout (e : Engine) (l : Language) (r : CacheRequest) : Prop := e.Asks r ∧ r.language = l

theorem asksAbout_modelAnalysis (e : Engine) (p : ParsedSource) (o : Outline) :
    (e.modelAnalysis p o).AsksOnly (e.AsksAbout p.language) := by
  rw [modelAnalysis]
  cases hs : e.modelSource? p.language with
  | none => trivial
  | some s =>
    dsimp only
    split
    · exact ⟨⟨.models hs, rfl⟩, fun answer => trivial⟩
    · trivial

theorem asksAbout_sourceAnalysis (e : Engine) (path : String) (l : Language)
    (content : ByteArray) : (e.sourceAnalysis path l content).AsksOnly (e.AsksAbout l) := by
  rw [sourceAnalysis]
  cases textOf path content with
  | error fault => trivial
  | ok text =>
    cases htemplates : e.templates l.family with
    | error fault => trivial
    | ok templates =>
      let p := ParsedSource.ofText l text
      have houtline : (Outline.analysis l p.text p.root).AsksOnly (e.AsksAbout l) := by
        cases l with
        | python => exact ⟨⟨.outline, rfl⟩, fun answer => trivial⟩
        | typescript => trivial
        | tsx => trivial
      have hfeatures : ∀ f ∈ e.catalog.features l,
          e.AsksAbout l (.feature (Detector.request p templates f)) := by
        intro f hf
        have hmem : (⟨l, templates, f⟩ : FeatureRequest) ∈ e.requests l := by
          rw [requests, htemplates]
          exact List.mem_map_of_mem hf
        exact ⟨.feature hmem, rfl⟩
      refine houtline.bind fun outline => ?_
      cases outline with
      | error fault => trivial
      | ok outline =>
        exact (Detector.asksOnly_analysis hfeatures).bind fun detections =>
          (e.asksAbout_modelAnalysis p outline).bind fun dataModels => trivial

theorem asksOnly_sourceAnalysis (e : Engine) (path : String) (l : Language)
    (content : ByteArray) : (e.sourceAnalysis path l content).AsksOnly e.Asks :=
  (e.asksAbout_sourceAnalysis path l content).mono fun _ hr => hr.1

theorem asksOnly_fileAnalysis (e : Engine) (fs : FileSystem) (path : String) :
    (e.fileAnalysis fs path).AsksOnly e.Asks := by
  rw [fileAnalysis]
  cases (Path.extension? path).bind Language.ofExtension? with
  | none => trivial
  | some l =>
    cases contentOf fs path with
    | error fault => trivial
    | ok content => exact e.asksOnly_sourceAnalysis path l content

/-! ## Caches of an engine's own -/

/-- The requests for queries of features that an engine can make. -/
def allRequests (e : Engine) : List FeatureRequest := Language.all.flatMap e.requests

/-- A cache that was asked for nothing but what an engine asks for. -/
def OwnCache (e : Engine) (fs : FileSystem) (c : QueryCache) : Prop :=
  LeftBy fs (fun l s => e.modelSource? l = some s) e.allRequests c

theorem ownCache_empty (e : Engine) (fs : FileSystem) : e.OwnCache fs .empty :=
  leftBy_empty fs _ _

theorem mem_allRequests {r : FeatureRequest} (hr : r ∈ e.requests l) : r ∈ e.allRequests := by
  have hl : l ∈ Language.all := by cases l <;> simp [Language.all]
  exact List.mem_flatMap.mpr ⟨l, hl, hr⟩

/-- A cache of the engine's own answers what the engine asks for as making anew answers it. -/
theorem OwnCache.serve {r : CacheRequest} (h : e.OwnCache fs c)
    (hrs : FeatureRequest.NoCollision e.allRequests) (hr : e.Asks r) :
    (r.serve fs c).1 = r.compiled fs ∧ e.OwnCache fs (r.serve fs c).2 := by
  cases hr with
  | outline =>
    obtain ⟨hanswer, -⟩ := h.sound.querySet Outline.queryKey .python [Outline.querySource]
    have hset : (c.querySet fs Outline.queryKey .python [Outline.querySource]).1 =
        QuerySet.compile fs .python [Outline.querySource] := by
      refine hanswer.resolve_right ?_
      rintro ⟨⟨b, hb, hother⟩, -⟩
      exact hother (h.outline b hb)
    have hafter : e.OwnCache fs
        (c.querySet fs Outline.queryKey .python [Outline.querySource]).2 := by
      refine LeftBy.querySet h (fun _ => ⟨rfl, rfl⟩) fun l hkey => ?_
      exact absurd hkey.symm (queryKey_ne_outline l)
    exact ⟨hset, hafter⟩
  | models hs =>
    obtain ⟨hanswer, hafter⟩ := LeftBy.modelSet h hs
    refine ⟨hanswer.resolve_right ?_, hafter⟩
    -- Only one source is asked for in a language.
    rintro ⟨⟨s', hs', hother⟩, -⟩
    exact hother (Option.some.inj (hs'.symm.trans hs))
  | feature hr =>
    rename_i r
    obtain ⟨hanswer, hkeeps⟩ := h.features.serve hrs (mem_allRequests hr)
    have hbound := QueryCache.bound?_congr (r.sets_serve c)
    refine ⟨hanswer, fun key b hb => ?_, fun b hb => ?_, fun l b hb => ?_, hkeeps⟩
    · exact h.sound key b (hbound ▸ hb)
    · exact h.outline b (hbound ▸ hb)
    · exact h.models l b (hbound ▸ hb)

theorem OwnCache.run {a : Analysis α} (h : e.OwnCache fs c)
    (hrs : FeatureRequest.NoCollision e.allRequests) (ha : a.AsksOnly e.Asks) :
    (a.run fs c).1 = a.result fs ∧ e.OwnCache fs (a.run fs c).2 :=
  Analysis.run_eq_result (fun _ _ hr hc => OwnCache.serve hc hrs hr) ha h

theorem OwnCache.analyzeSource (h : e.OwnCache fs c)
    (hrs : FeatureRequest.NoCollision e.allRequests) (path : String) (l : Language)
    (content : ByteArray) :
    (e.analyzeSource fs path l content c).1 = (e.sourceAnalysis path l content).result fs ∧
      e.OwnCache fs (e.analyzeSource fs path l content c).2 := by
  rw [← run_sourceAnalysis]
  exact h.run hrs (e.asksOnly_sourceAnalysis path l content)

theorem OwnCache.analyzeFiles (h : e.OwnCache fs c)
    (hrs : FeatureRequest.NoCollision e.allRequests) (paths : List String) :
    (e.analyzeFiles fs paths c).1 =
      paths.map fun path => (path, (e.fileAnalysis fs path).result fs) := by
  induction paths generalizing c with
  | nil => rfl
  | cons path rest ih =>
    obtain ⟨hresult, hafter⟩ := h.run hrs (e.asksOnly_fileAnalysis fs path)
    rw [run_fileAnalysis] at hresult hafter
    rw [Engine.analyzeFiles, List.map_cons, ← hresult, ← ih hafter]

/-- Through a cache of the engine's own, files yield one result each, in order: what the file
yields where nothing has been kept. -/
theorem OwnCache.analyzeFiles_eq_map (h : e.OwnCache fs c)
    (hrs : FeatureRequest.NoCollision e.allRequests) (paths : List String) :
    (e.analyzeFiles fs paths c).1 =
      paths.map fun path => (path, (e.analyzeFile fs path .empty).1) := by
  rw [h.analyzeFiles hrs]
  refine List.map_congr_left fun path _ => ?_
  rw [← run_fileAnalysis, ((e.ownCache_empty fs).run hrs (e.asksOnly_fileAnalysis fs path)).1]

/-! ## Other files -/

/-- The queries for data models read the same in two states of the files. -/
def SameQueries (e : Engine) (fs fs' : FileSystem) : Prop :=
  ∀ l s, e.modelSource? l = some s → s.text? fs = s.text? fs'

theorem serve_set_congr {s : QuerySource} (h : s.text? fs = s.text? fs') (key : String)
    (l : Language) :
    CacheRequest.serve fs (.set key l [s]) = CacheRequest.serve fs' (.set key l [s]) := by
  have hset : ∀ c : QueryCache, c.querySet fs key l [s] = c.querySet fs' key l [s] := by
    intro c
    rw [QueryCache.querySet, QueryCache.querySet, QuerySet.compile_congr h l]
  exact funext hset

theorem SameQueries.serve {r : CacheRequest} (h : e.SameQueries fs fs') (hr : e.Asks r) :
    r.serve fs = r.serve fs' := by
  cases hr with
  | outline =>
    have htext : Outline.querySource.text? fs = Outline.querySource.text? fs' := rfl
    exact serve_set_congr htext Outline.queryKey .python
  | models hs => exact serve_set_congr (h _ _ hs) _ _
  | feature hr => rfl

theorem SameQueries.analyzeSource (h : e.SameQueries fs fs') (path : String) (l : Language)
    (content : ByteArray) (c : QueryCache) :
    e.analyzeSource fs path l content c = e.analyzeSource fs' path l content c := by
  rw [← run_sourceAnalysis, ← run_sourceAnalysis]
  exact Analysis.run_congr (fun _ => h.serve) (e.asksOnly_sourceAnalysis path l content)

theorem SameQueries.analyzeFile (h : e.SameQueries fs fs') {path : String}
    (hcontent : contentOf fs path = contentOf fs' path) (c : QueryCache) :
    e.analyzeFile fs path c = e.analyzeFile fs' path c := by
  have hsame : e.fileAnalysis fs path = e.fileAnalysis fs' path := by
    rw [fileAnalysis, fileAnalysis, hcontent]
  rw [← run_fileAnalysis, ← run_fileAnalysis, hsame]
  exact Analysis.run_congr (fun _ => h.serve) (e.asksOnly_fileAnalysis fs' path)

end Engine

end SourceFacts
