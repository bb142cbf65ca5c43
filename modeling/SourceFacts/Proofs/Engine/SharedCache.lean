import SourceFacts.Engine
import SourceFacts.Proofs.Detector.Reference
import SourceFacts.Proofs.QueryCache.Sets

/-!
# Engines that share a cache

What a source yields by itself can be said without a cache (`Engine.alone`). A cache that calls
of engines leave behind answers in the same way (`LeftBy.analyzeSource`), but for one thing: the
query for data models is kept under a key that does not tell where the query comes from. Where an
engine with another query has taken the key, data models are silently left out.

So a cache that serves one engine never matters (`Call.answer_own`). Through a shared one each
call tells the same as with a cache of its engine's own, or the same without data models after
a call of an engine with another query for them (`Call.answer_shared`).
-/

namespace SourceFacts

/-- The outline of a Python tree is what its query finds. -/
theorem Outline.extract_python (fs : FileSystem) (t : Syntax.SourceText) (root : Syntax.Node)
    (c : QueryCache) : Outline.extract fs .python t root c =
      ((c.querySet fs Outline.queryKey .python [Outline.querySource]).1.map fun set =>
        match set.get? "outline" with
        | some q => Outline.ofPython q t root
        | none => .empty,
      (c.querySet fs Outline.queryKey .python [Outline.querySource]).2) :=
  rfl

namespace Engine

variable {e : Engine} {fs : FileSystem} {c : QueryCache} {l : Language}
variable {asked : Language → QuerySource → Prop} {rs : List FeatureRequest}
variable {p : ParsedSource} {templates : TemplateSet}

/-- The source of the query for data models in a language. -/
def modelSource? (e : Engine) (l : Language) : Option QuerySource :=
  (e.modelQueries.find? (·.1 == l)).map (·.2)

/-- The requests for queries of features that a source in a language can lead to. -/
def requests (e : Engine) (l : Language) : List FeatureRequest :=
  match e.templates l.family with
  | .ok templates => (e.catalog.features l).map fun f => ⟨l, templates, f⟩
  | .error _ => []

/-- The facts of a text by themselves: every query is made anew. -/
def textAlone (e : Engine) (fs : FileSystem) (templates : TemplateSet) (path : String)
    (l : Language) (text : String) : Except EngineError FileFacts :=
  let p := ParsedSource.ofText l text
  match (Outline.extract fs l p.text p.root .empty).1 with
  | .error fault => .error (.config fault)
  | .ok outline => .ok
    { path, language := l, context := p.context
      detections :=
        Detector.firstUses [] (Detector.occurrences p templates (e.catalog.features l))
      dataModels := (e.dataModels fs p outline .empty).1
      outline := outline.inCallOrder }

/-- The facts of a source by themselves. -/
def alone (e : Engine) (fs : FileSystem) (path : String) (l : Language) (content : ByteArray) :
    Except EngineError FileFacts :=
  match textOf path content with
  | .error fault => .error fault
  | .ok text =>
    match e.templates l.family with
    | .error fault => .error (.config fault)
    | .ok templates => e.textAlone fs templates path l text

/-- The data models that the answer to a request for their query tells. -/
def modelsOf (p : ParsedSource) : Except ConfigError QuerySet → ModelDetection
  | .ok set =>
    match set.get? "data_model" with
    | some q => DataModel.detectionOf (DataModel.byQuery q p)
    | none => .none
  | .error _ => .none

/-- The data models that the outline of a file shows. -/
def shownModels (p : ParsedSource) (o : Outline) : List DataModel.Model :=
  if p.language = .python then DataModel.bySignature p.context.aliases o else []

/-- Data models are those that the outline shows, or else those that their query tells. -/
theorem dataModels_eq (e : Engine) (fs : FileSystem) (p : ParsedSource) (o : Outline)
    (c : QueryCache) : e.dataModels fs p o c =
      match e.modelSource? p.language with
      | none => (.none, c)
      | some s =>
        if (shownModels p o).isEmpty then
          let result := c.querySet fs (DataModel.queryKey p.language) p.language [s]
          (modelsOf p result.1, result.2)
        else (DataModel.detectionOf (shownModels p o), c) := by
  rw [dataModels, modelSource?]
  cases e.modelQueries.find? (·.1 == p.language) with
  | none => rfl
  | some found =>
    obtain ⟨l, s⟩ := found
    have hshows : (if p.language = .python then DataModel.bySignature p.context.aliases o else []) =
        shownModels p o := rfl
    simp only [DataModel.detect, Option.map_some, hshows]
    by_cases hshown : (shownModels p o).isEmpty
    · simp only [hshown, Bool.not_true, Bool.false_eq_true, if_false, if_true]
      generalize c.querySet fs (DataModel.queryKey p.language) p.language [s] = result
      obtain ⟨answer, c'⟩ := result
      cases answer <;> rfl
    · simp only [hshown, Bool.not_false, Bool.false_eq_true, if_false, if_true]

/-- An answer is the same as another one, or the same without data models if these are lost. -/
def SameButModels (lost : Prop) (alone answer : Except EngineError FileFacts) : Prop :=
  answer = alone ∨
    lost ∧ ∃ facts, alone = .ok facts ∧ answer = .ok { facts with dataModels := .none }

/-! ## What calls leave behind -/

/-- A cache as calls of engines leave it that asked for the given queries of data models, by
language, and for queries of features by the given requests. -/
structure LeftBy (fs : FileSystem) (asked : Language → QuerySource → Prop)
    (rs : List FeatureRequest) (c : QueryCache) : Prop where
  sound : c.Sound fs
  outline : ∀ b, c.bound? Outline.queryKey = some b →
    b.language = .python ∧ b.sources = [Outline.querySource]
  models : ∀ l b, c.bound? (DataModel.queryKey l) = some b →
    b.language = l ∧ ∃ s, asked l s ∧ b.sources = [s]
  features : c.Keeps rs

theorem queryKey_ne_outline (l : Language) : DataModel.queryKey l ≠ Outline.queryKey := by
  cases l <;> decide

theorem queryKey_injective {l l' : Language} (h : DataModel.queryKey l = DataModel.queryKey l') :
    l = l' := by
  revert h
  cases l <;> cases l' <;> decide

theorem leftBy_empty (fs : FileSystem) (asked : Language → QuerySource → Prop)
    (rs : List FeatureRequest) : LeftBy fs asked rs .empty where
  sound := QueryCache.sound_empty fs
  outline b hb := by simp [QueryCache.bound?, QueryCache.empty] at hb
  models l b hb := by simp [QueryCache.bound?, QueryCache.empty] at hb
  features := QueryCache.keeps_empty rs

namespace LeftBy

theorem mono {asked' : Language → QuerySource → Prop} {more : List FeatureRequest}
    (h : LeftBy fs asked rs c) (hasked : ∀ l s, asked l s → asked' l s) (hsub : rs ⊆ more) :
    LeftBy fs asked' more c where
  sound := h.sound
  outline := h.outline
  models l b hb := by
    obtain ⟨hl, s, hs, hsources⟩ := h.models l b hb
    exact ⟨hl, s, hasked l s hs, hsources⟩
  features := h.features.mono hsub

/-- A request for a set leaves such a cache behind, if it is one for outlines or one of those for
data models. -/
theorem querySet (h : LeftBy fs asked rs c) {key : String} {sources : List QuerySource}
    (houtline : key = Outline.queryKey → l = .python ∧ sources = [Outline.querySource])
    (hmodels : ∀ l', key = DataModel.queryKey l' → l = l' ∧ ∃ s, asked l' s ∧ sources = [s]) :
    LeftBy fs asked rs (c.querySet fs key l sources).2 := by
  obtain ⟨-, hsound, hbound, hfeatures⟩ := h.sound.querySet key l sources
  refine ⟨hsound, fun b hb => ?_, fun l' b hb => ?_, h.features.congr hfeatures⟩
  · rcases hbound _ b hb with hbefore | ⟨hkey, rfl, rfl⟩
    · exact h.outline b hbefore
    · exact houtline hkey.symm
  · rcases hbound _ b hb with hbefore | ⟨hkey, rfl, rfl⟩
    · exact h.models l' b hbefore
    · exact hmodels l' hkey.symm

/-- Outlines are what they are by themselves. -/
theorem extract (h : LeftBy fs asked rs c) (l : Language) (t : Syntax.SourceText)
    (root : Syntax.Node) :
    (Outline.extract fs l t root c).1 = (Outline.extract fs l t root .empty).1 ∧
      LeftBy fs asked rs (Outline.extract fs l t root c).2 := by
  have hset : ∀ c', LeftBy fs asked rs c' →
      (c'.querySet fs Outline.queryKey .python [Outline.querySource]).1 =
        QuerySet.compile fs .python [Outline.querySource] := by
    intro c' h'
    refine (h'.sound.querySet _ _ _).1.resolve_right ?_
    rintro ⟨⟨b, hb, hother⟩, -⟩
    exact hother (h'.outline b hb)
  cases l with
  | typescript => exact ⟨rfl, h⟩
  | tsx => exact ⟨rfl, h⟩
  | python =>
    rw [Outline.extract_python, Outline.extract_python, hset c h,
      hset .empty (leftBy_empty fs asked rs)]
    refine ⟨rfl, h.querySet (fun _ => ⟨rfl, rfl⟩) fun l hkey => ?_⟩
    exact absurd hkey.symm (queryKey_ne_outline l)

/-- Detections are what they are by themselves. -/
theorem detect (h : LeftBy fs asked rs c) (hrs : FeatureRequest.NoCollision rs)
    {features : List Feature} (hmem : ∀ f ∈ features, Detector.request p templates f ∈ rs) :
    (Detector.detect p templates features c).1 =
        Detector.firstUses [] (Detector.occurrences p templates features) ∧
      LeftBy fs asked rs (Detector.detect p templates features c).2 := by
  obtain ⟨hfound, hkeeps⟩ := Detector.detect_eq h.features hrs hmem
  have hbound := QueryCache.bound?_congr (Detector.sets_detect p templates features c)
  refine ⟨hfound, fun key b hb => ?_, fun b hb => ?_, fun l b hb => ?_, hkeeps⟩
  · exact h.sound key b (by rwa [hbound] at hb)
  · exact h.outline b (by rwa [hbound] at hb)
  · exact h.models l b (by rwa [hbound] at hb)

/-- The set of the query for data models is what its source compiles to, unless an engine with
another source has taken the key. -/
theorem modelSet (h : LeftBy fs asked rs c) {s : QuerySource} (hs : asked l s) :
    let result := c.querySet fs (DataModel.queryKey l) l [s]
    (result.1 = QuerySet.compile fs l [s] ∨
      (∃ s', asked l s' ∧ s' ≠ s) ∧ ∃ fault, result.1 = .error fault) ∧
    LeftBy fs asked rs result.2 := by
  obtain ⟨hanswer, -⟩ := h.sound.querySet (DataModel.queryKey l) l [s]
  refine ⟨hanswer.imp_right ?_, h.querySet (fun hkey => ?_) fun l' hkey => ?_⟩
  · rintro ⟨⟨b, hb, hother⟩, hfault⟩
    obtain ⟨hl, s', hs', hsources⟩ := h.models l b hb
    refine ⟨⟨s', hs', ?_⟩, _, hfault⟩
    rintro rfl
    exact hother ⟨hl, hsources⟩
  · exact absurd hkey (queryKey_ne_outline l)
  · obtain rfl := queryKey_injective hkey
    exact ⟨rfl, s, hs, rfl⟩

/-- Data models are what they are by themselves, or there are none and an engine with another
query has been at work. -/
theorem dataModels (h : LeftBy fs asked rs c) (o : Outline)
    (hasked : ∀ s, e.modelSource? p.language = some s → asked p.language s) :
    let result := e.dataModels fs p o c
    (result.1 = (e.dataModels fs p o .empty).1 ∨
      (∃ s, asked p.language s ∧ e.modelSource? p.language ≠ some s) ∧ result.1 = .none) ∧
    LeftBy fs asked rs result.2 := by
  cases hs : e.modelSource? p.language with
  | none =>
    simp only [dataModels_eq, hs, true_or, true_and]
    exact h
  | some s =>
    obtain ⟨hanswer, hafter⟩ := h.modelSet (hasked s hs)
    have hempty : (QueryCache.empty.querySet fs (DataModel.queryKey p.language) p.language [s]).1 =
        QuerySet.compile fs p.language [s] := by
      -- No other source has been asked for where nothing is kept.
      have hown := (leftBy_empty fs (fun _ s' => s' = s) rs).modelSet (l := p.language) rfl
      refine hown.1.resolve_right ?_
      rintro ⟨⟨s', hsame, hother⟩, -⟩
      exact hother hsame
    simp only [dataModels_eq, hs]
    by_cases hshown : (shownModels p o).isEmpty
    · simp only [if_pos hshown, hempty]
      refine ⟨?_, hafter⟩
      rcases hanswer with hset | ⟨⟨s', hs', hother⟩, fault, hset⟩
      · rw [hset]
        exact Or.inl rfl
      · rw [hset]
        exact Or.inr ⟨⟨s', hs', fun hsame => hother (Option.some.inj hsame).symm⟩, rfl⟩
    · simp only [if_neg hshown, true_or, true_and]
      exact h

/-- The facts of a text are what they are by themselves, but for data models. -/
theorem factsOfText (h : LeftBy fs asked rs c) (hrs : FeatureRequest.NoCollision rs)
    (path text : String) (hrequests : ∀ f ∈ e.catalog.features l, ⟨l, templates, f⟩ ∈ rs)
    (hasked : ∀ s, e.modelSource? l = some s → asked l s) :
    let result := e.factsOfText fs templates path l text c
    SameButModels (∃ s, asked l s ∧ e.modelSource? l ≠ some s)
        (e.textAlone fs templates path l text) result.1 ∧
      LeftBy fs asked rs result.2 := by
  let p := ParsedSource.ofText l text
  obtain ⟨houtline, hafterOutline⟩ := h.extract l p.text p.root
  simp only [Engine.factsOfText, textAlone]
  rw [← houtline]
  generalize Outline.extract fs l p.text p.root c = extracted at hafterOutline
  obtain ⟨outline, c₁⟩ := extracted
  cases outline with
  | error fault => exact ⟨Or.inl rfl, hafterOutline⟩
  | ok outline =>
    obtain ⟨hfound, hafterDetect⟩ := hafterOutline.detect (p := p) hrs hrequests
    obtain ⟨hmodels, hafterModels⟩ := hafterDetect.dataModels (p := p) outline hasked
    dsimp only
    rw [hfound]
    refine ⟨?_, hafterModels⟩
    rcases hmodels with hsame | ⟨hlost, hnone⟩
    · left
      rw [hsame]
    · right
      rw [hnone]
      exact ⟨hlost, _, rfl, rfl⟩

/-- The facts of a source are what they are by themselves, but for data models. -/
theorem analyzeSource (h : LeftBy fs asked rs c) (hrs : FeatureRequest.NoCollision rs)
    (path : String) (content : ByteArray) (hrequests : e.requests l ⊆ rs)
    (hasked : ∀ s, e.modelSource? l = some s → asked l s) :
    let result := e.analyzeSource fs path l content c
    SameButModels (∃ s, asked l s ∧ e.modelSource? l ≠ some s)
        (e.alone fs path l content) result.1 ∧
      LeftBy fs asked rs result.2 := by
  simp only [Engine.analyzeSource, alone]
  cases textOf path content with
  | error fault => exact ⟨Or.inl rfl, h⟩
  | ok text =>
    cases htemplates : e.templates l.family with
    | error fault => exact ⟨Or.inl rfl, h⟩
    | ok templates =>
      have hmem : ∀ f ∈ e.catalog.features l, (⟨l, templates, f⟩ : FeatureRequest) ∈ rs := by
        intro f hf
        refine hrequests ?_
        rw [requests, htemplates]
        exact List.mem_map_of_mem hf
      exact h.factsOfText hrs path text hmem hasked

end LeftBy

end Engine

/-! ## Runs of calls -/

/-- A call of one of some engines: a source to be analysed by it. -/
structure Call (ι : Type) where
  engine : ι
  path : String
  language : Language
  content : ByteArray

namespace Call

variable {ι : Type} {engines : ι → Engine} {fs : FileSystem} {c : QueryCache}

/-- The answer to a call, with the cache that it leaves. -/
def answer (engines : ι → Engine) (fs : FileSystem) (call : Call ι) (c : QueryCache) :
    Except EngineError FileFacts × QueryCache :=
  (engines call.engine).analyzeSource fs call.path call.language call.content c

/-- The cache that calls leave, one after the other. -/
def after (engines : ι → Engine) (fs : FileSystem) (calls : List (Call ι)) (c : QueryCache) :
    QueryCache :=
  calls.foldl (fun c call => (call.answer engines fs c).2) c

/-- The source of the query for data models that a call can ask for. -/
def modelSource? (engines : ι → Engine) (call : Call ι) : Option QuerySource :=
  (engines call.engine).modelSource? call.language

/-- The requests for queries of features that a call can lead to. -/
def requests (engines : ι → Engine) (call : Call ι) : List FeatureRequest :=
  (engines call.engine).requests call.language

/-- What the calls of a run ask for by way of queries for data models. -/
def Asked (engines : ι → Engine) (calls : List (Call ι)) (l : Language) (s : QuerySource) :
    Prop :=
  ∃ call ∈ calls, call.language = l ∧ call.modelSource? engines = some s

theorem requests_subset {calls more : List (Call ι)} (h : calls ⊆ more) :
    calls.flatMap (requests engines) ⊆ more.flatMap (requests engines) := by
  intro r hr
  obtain ⟨call, hcall, hr⟩ := List.mem_flatMap.mp hr
  exact List.mem_flatMap.mpr ⟨call, h hcall, hr⟩

/-- One call more: its answer, and the cache that it leaves. -/
theorem answer_spec {past : List (Call ι)} (call : Call ι)
    (h : Engine.LeftBy fs (Asked engines past) (past.flatMap (requests engines)) c)
    (hrs : FeatureRequest.NoCollision ((past ++ [call]).flatMap (requests engines))) :
    Engine.SameButModels (∃ s, Asked engines past call.language s ∧
        call.modelSource? engines ≠ some s)
        ((engines call.engine).alone fs call.path call.language call.content)
        (call.answer engines fs c).1 ∧
      Engine.LeftBy fs (Asked engines (past ++ [call]))
        ((past ++ [call]).flatMap (requests engines)) (call.answer engines fs c).2 := by
  have hnow : Engine.LeftBy fs (Asked engines (past ++ [call]))
      ((past ++ [call]).flatMap (requests engines)) c := by
    refine h.mono ?_ (requests_subset (List.subset_append_left past [call]))
    rintro l s ⟨other, hother, hl, hs⟩
    exact ⟨other, List.mem_append_left _ hother, hl, hs⟩
  have hrequests : call.requests engines ⊆ (past ++ [call]).flatMap (requests engines) := by
    intro r hr
    exact List.mem_flatMap.mpr ⟨call, by simp, hr⟩
  have hasked : ∀ s, call.modelSource? engines = some s →
      Asked engines (past ++ [call]) call.language s :=
    fun s hs => ⟨call, by simp, rfl, hs⟩
  obtain ⟨hanswer, hafter⟩ := hnow.analyzeSource hrs call.path call.content hrequests hasked
  refine ⟨?_, hafter⟩
  rcases hanswer with hsame | ⟨⟨s, ⟨other, hother, hl, hs⟩, hdiffers⟩, hlost⟩
  · exact Or.inl hsame
  · refine Or.inr ⟨⟨s, ⟨other, ?_, hl, hs⟩, hdiffers⟩, hlost⟩
    -- The source that took the key is not the one that the call itself asks for.
    rcases List.mem_append.mp hother with hbefore | hcurrent
    · exact hbefore
    · obtain rfl := List.mem_singleton.mp hcurrent
      exact absurd hs hdiffers

/-- What a run of calls leaves behind. -/
theorem leftBy_after (calls : List (Call ι))
    (hrs : FeatureRequest.NoCollision (calls.flatMap (requests engines))) :
    Engine.LeftBy fs (Asked engines calls) (calls.flatMap (requests engines))
      (after engines fs calls .empty) := by
  -- Calls are added at the end, so that what was asked for grows with the run.
  induction calls using List.reverseRecOn with
  | nil => exact Engine.leftBy_empty fs _ _
  | append_singleton past call ih =>
    have hpast : FeatureRequest.NoCollision (past.flatMap (requests engines)) :=
      hrs.mono (requests_subset (List.subset_append_left past [call]))
    rw [after, List.foldl_append]
    exact (answer_spec call (ih hpast) hrs).2

/-- With calls of its own engine before it only, a call tells what it tells by itself. -/
theorem answer_own {past : List (Call ι)} {call : Call ι}
    (hown : ∀ other ∈ past, other.engine = call.engine)
    (hrs : FeatureRequest.NoCollision ((past ++ [call]).flatMap (requests engines))) :
    (call.answer engines fs (after engines fs past .empty)).1 =
      (engines call.engine).alone fs call.path call.language call.content := by
  have hpast : FeatureRequest.NoCollision (past.flatMap (requests engines)) :=
    hrs.mono (requests_subset (List.subset_append_left past [call]))
  refine (answer_spec call (leftBy_after past hpast) hrs).1.resolve_right ?_
  rintro ⟨⟨s, ⟨other, hother, hl, hs⟩, hdiffers⟩, -⟩
  refine hdiffers ?_
  rw [← hs, modelSource?, modelSource?, hown other hother, hl]

/-- **What engines that share a cache have to do with each other.** Whatever calls are made of
some engines, in whatever order, through one cache: each call tells the same as it would with a
cache of its engine's own, or it tells the same without data models, and before it another engine
was asked about the same language that has another query for data models. -/
theorem answer_shared [DecidableEq ι] (engines : ι → Engine) (fs : FileSystem)
    (calls : List (Call ι))
    (hrs : FeatureRequest.NoCollision (calls.flatMap (requests engines))) :
    ∀ i call, calls[i]? = some call →
      let past := calls.take i
      let shared := (call.answer engines fs (after engines fs past .empty)).1
      let own := (call.answer engines fs
        (after engines fs (past.filter (·.engine = call.engine)) .empty)).1
      shared = own ∨
        (∃ other ∈ past, other.language = call.language ∧ ∃ s,
          other.modelSource? engines = some s ∧ call.modelSource? engines ≠ some s) ∧
        ∃ facts, own = .ok facts ∧ shared = .ok { facts with dataModels := .none } := by
  intro i call hcall past shared own
  have hsplit : past ++ [call] = calls.take (i + 1) := by
    rw [List.take_add_one, hcall]
    rfl
  have hshared : FeatureRequest.NoCollision ((past ++ [call]).flatMap (requests engines)) := by
    refine hrs.mono (requests_subset ?_)
    rw [hsplit]
    exact List.take_subset _ _
  have hpast : FeatureRequest.NoCollision (past.flatMap (requests engines)) :=
    hshared.mono (requests_subset (List.subset_append_left past [call]))
  have hown : own = (engines call.engine).alone fs call.path call.language call.content := by
    refine answer_own (fun other hother => ?_) (hshared.mono (requests_subset ?_))
    · simpa using (List.mem_filter.mp hother).2
    · intro other hother
      rcases List.mem_append.mp hother with hbefore | hcurrent
      · exact List.mem_append_left _ (List.mem_of_mem_filter hbefore)
      · exact List.mem_append_right _ hcurrent
  -- Both sides are compared with what the call tells by itself.
  rw [hown]
  rcases (answer_spec call (leftBy_after past hpast) hshared).1 with
    hsame | ⟨⟨s, ⟨other, hother, hl, hs⟩, hdiffers⟩, hlost⟩
  · exact Or.inl hsame
  · exact Or.inr ⟨⟨other, hother, hl, s, hs, hdiffers⟩, hlost⟩

theorem answer_shared_otherTemplates :
    let f : Feature :=
      { key := "app", library := "fastapi", paths := ["fastapi.FastAPI"], target := .function
        concept := .call, strategy := .direct, constructs := none, description := ""
        startpoint := false }
    let engine (callExpression : String) : Engine :=
      { pythonTemplates := .ok
          { family := "python", decoratorClass := "", decoratorFunction := "", callExpression
            inheritance := "" }
        typescriptTemplates := .error (.unsupportedLanguage "typescript")
        modelQueries := [], catalog := ⟨[f], []⟩, rules := ⟨[]⟩ }
    let engines (other : Bool) : Engine :=
      if other then engine "(_) @target @callee" else engine "(_ (_) @callee) @target"
    let call (engine : Bool) : Call Bool := ⟨engine, "a.py", .python, "import app".toUTF8⟩
    let fs : FileSystem := ⟨.empty, []⟩
    FeatureRequest.NoCollision ([call false, call true].flatMap (requests engines)) ∧
      ((call true).answer engines fs (after engines fs [call false] .empty)).1 =
        ((call true).answer engines fs .empty).1 := by
  intro f engine engines call fs
  have htexts : ([call false, call true].flatMap (requests engines)).filterMap
      FeatureRequest.templateText? = ["(_ (_) @callee) @target", "(_) @target @callee"] := rfl
  have hshapes : ([call false, call true].flatMap (requests engines)).filterMap
      FeatureRequest.shapeText? = List.replicate 2 (FeatureQuery.shape f).compact := rfl
  have hrs : FeatureRequest.NoCollision ([call false, call true].flatMap (requests engines)) := by
    constructor
    · rw [htexts]
      exact Blake3.noCollision_of_nodup (by decide +kernel)
    · rw [hshapes]
      intro a ha b hb _
      rw [List.eq_of_mem_replicate ha, List.eq_of_mem_replicate hb]
  refine ⟨hrs, ?_⟩
  rcases answer_shared engines fs [call false, call true] hrs 1 (call true) rfl with
    hsame | ⟨⟨other, hother, -, s, hs, -⟩, -⟩
  · exact hsame
  · obtain rfl : other = call false := by simpa using hother
    cases hs

end Call

end SourceFacts
