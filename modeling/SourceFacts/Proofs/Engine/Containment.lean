import SourceFacts.Proofs.Engine.Lockstep
import SourceFacts.Proofs.Outline.Query

/-!
# Broken queries are contained

What is wrong with the directory of queries in one language family does not show in another one,
and what is wrong with a query for data models shows in data models only
(`Engine.analyses_contained`): an engine tells the same about the sources in a family in any two
states of the directory with the same files for the family.

The engines of the two states are followed side by side, each with a cache of its own. The sets
and queries that concern the family are the same in both caches, or the same but for the query for
data models (`Engine.FamilyKey`), whatever else the engines were asked about: a call about another
family asks for nothing of the kind (`Engine.SameFor.agree_call`).
-/

namespace SourceFacts

namespace Engine

open QueryCache (Agree)
open Analysis (Related)

variable {e e' : Engine} {fs fs' : FileSystem} {c c' : QueryCache} {l : Language}
variable {family : Family} {models : Prop}

/-! ## What concerns a family -/

/-- The keys of the sets that sources in a family ask for. If the queries for data models may
differ, their keys are left out. -/
inductive FamilyKey (family : Family) (models : Prop) : String → Prop
  | outline (h : Language.python.family = family) : FamilyKey family models Outline.queryKey
  | models {l : Language} (h : models) (hl : l.family = family) :
      FamilyKey family models (DataModel.queryKey l)

theorem notFamilyKey_outline (h : Language.python.family ≠ family) :
    ¬ FamilyKey family models Outline.queryKey := by
  intro hkey
  generalize hname : Outline.queryKey = key at hkey
  cases hkey with
  | outline hpython => exact h hpython
  | models _ _ => exact queryKey_ne_outline _ hname.symm

theorem notFamilyKey_models (h : models → l.family ≠ family) :
    ¬ FamilyKey family models (DataModel.queryKey l) := by
  intro hkey
  generalize hname : DataModel.queryKey l = key at hkey
  cases hkey with
  | outline _ => exact queryKey_ne_outline l hname
  | models hmodels hl =>
    obtain rfl := queryKey_injective hname
    exact h hmodels hl

/-- What an engine asks about another family does not concern the family. -/
theorem AsksAbout.apart {r : CacheRequest} (h : e.AsksAbout l r) (hl : l.family ≠ family) :
    r.Apart (FamilyKey family models) family := by
  obtain ⟨hr, rfl⟩ := h
  cases hr with
  | outline => exact notFamilyKey_outline hl
  | models hs => exact notFamilyKey_models fun _ => hl
  | feature hr => exact hl

/-- Two engines, each with its files, have the same templates for a family and the same catalog,
and the same queries for its data models unless these may differ. -/
structure SameFor (family : Family) (models : Prop) (e e' : Engine) (fs fs' : FileSystem) :
    Prop where
  templates : e.templates family = e'.templates family
  catalog : e.catalog = e'.catalog
  models : models → ∀ l, l.family = family → e.modelSource? l = e'.modelSource? l ∧
    ∀ s, e.modelSource? l = some s → s.text? fs = s.text? fs'

/-- The same facts but for data models, or the same error. -/
inductive UpToModels : Except EngineError FileFacts → Except EngineError FileFacts → Prop
  | error (fault : EngineError) : UpToModels (.error fault) (.error fault)
  | ok (facts : FileFacts) (dataModels : ModelDetection) :
      UpToModels (.ok facts) (.ok { facts with dataModels })

/-- Two answers are the same, but for data models if these may differ. -/
def SameAnswer (models : Prop) (answer answer' : Except EngineError FileFacts) : Prop :=
  UpToModels answer answer' ∧ (models → answer = answer')

/-! ## One call -/

theorem related_outline (hl : l.family = family) (fs fs' : FileSystem) (t : Syntax.SourceText)
    (root : Syntax.Node) :
    Related (FamilyKey family models) family fs fs' (· = ·) (Outline.analysis l t root)
      (Outline.analysis l t root) := by
  refine Analysis.related_of_shared ?_
  cases l with
  | typescript => trivial
  | tsx => trivial
  | python =>
    have hcompile := (Outline.compile_querySource fs).trans (Outline.compile_querySource fs').symm
    exact ⟨⟨.outline hl, hcompile⟩, fun answer => trivial⟩

theorem related_detector (p : ParsedSource) (hl : p.language.family = family)
    (fs fs' : FileSystem) (templates : TemplateSet) (features : List Feature) :
    Related (FamilyKey family models) family fs fs' (· = ·)
      (Detector.analysis p templates features) (Detector.analysis p templates features) :=
  Analysis.related_of_shared (Detector.asksOnly_analysis fun _ _ => hl)

namespace SameFor

theorem modelAnalysis (h : SameFor family models e e' fs fs') (p : ParsedSource)
    (hl : p.language.family = family) (o : Outline) :
    Related (FamilyKey family models) family fs fs' (fun d d' => models → d = d')
      (e.modelAnalysis p o) (e'.modelAnalysis p o) := by
  by_cases hmodels : models
  · obtain ⟨hsource, htext⟩ := h.models hmodels p.language hl
    have hsame : e'.modelAnalysis p o = e.modelAnalysis p o := by
      rw [Engine.modelAnalysis, Engine.modelAnalysis, hsource]
    rw [hsame]
    refine (Analysis.related_of_shared ?_).mono fun _ _ hd _ => hd
    rw [Engine.modelAnalysis]
    cases hs : e.modelSource? p.language with
    | none => trivial
    | some s =>
      dsimp only
      split
      · exact ⟨⟨.models hmodels hl, QuerySet.compile_congr (htext s hs) _⟩, fun answer => trivial⟩
      · trivial
  · -- The two queries may have nothing to do with each other, but their keys do not concern others.
    have hapart : ∀ e₀ : Engine,
        (e₀.modelAnalysis p o).AsksOnly (·.Apart (FamilyKey family models) family) := by
      intro e₀
      rw [Engine.modelAnalysis]
      cases e₀.modelSource? p.language with
      | none => trivial
      | some s =>
        dsimp only
        split
        · exact ⟨notFamilyKey_models fun h => absurd h hmodels, fun answer => trivial⟩
        · trivial
    exact (Analysis.related_of_apart (hapart e) (hapart e')).mono fun _ _ _ h => absurd h hmodels

theorem textAnalysis (h : SameFor family models e e' fs fs') (hl : l.family = family)
    (templates : TemplateSet) (path text : String) :
    Related (FamilyKey family models) family fs fs' (SameAnswer models)
      (e.textAnalysis templates path l text) (e'.textAnalysis templates path l text) := by
  let p := ParsedSource.ofText l text
  rw [Engine.textAnalysis, Engine.textAnalysis, ← h.catalog]
  refine (related_outline hl fs fs' p.text p.root).bind fun outline _ houtline => ?_
  subst houtline
  cases outline with
  | error fault => exact Analysis.related_done ⟨.error _, fun _ => rfl⟩
  | ok outline =>
    refine (related_detector p hl fs fs' templates _).bind fun detections _ hdetections => ?_
    subst hdetections
    refine (h.modelAnalysis p hl outline).bind fun dataModels dataModels' hmodels => ?_
    refine Analysis.related_done ⟨.ok _ dataModels', fun hsame => ?_⟩
    rw [hmodels hsame]

/-- Sources in the family are analysed alike. -/
theorem sourceAnalysis (h : SameFor family models e e' fs fs') (hl : l.family = family)
    (path : String) (content : ByteArray) :
    Related (FamilyKey family models) family fs fs' (SameAnswer models)
      (e.sourceAnalysis path l content) (e'.sourceAnalysis path l content) := by
  have htemplates : e.templates l.family = e'.templates l.family := by
    rw [hl]
    exact h.templates
  rw [Engine.sourceAnalysis, Engine.sourceAnalysis, ← htemplates]
  cases textOf path content with
  | error fault => exact Analysis.related_done ⟨.error _, fun _ => rfl⟩
  | ok text =>
    cases e.templates l.family with
    | error fault => exact Analysis.related_done ⟨.error _, fun _ => rfl⟩
    | ok templates => exact h.textAnalysis hl templates path text

end SameFor

/-! ## Runs of calls -/

namespace SameFor

/-- A call to both engines: about the family they tell the same, and about another one whatever
they tell does not matter to the family. -/
theorem agree_call (h : SameFor family models e e' fs fs') (call : Call Unit)
    (hc : Agree (FamilyKey family models) family c c') :
    (call.language.family = family → SameAnswer models (call.answer (fun _ => e) fs c).1
      (call.answer (fun _ => e') fs' c').1) ∧
    Agree (FamilyKey family models) family (call.answer (fun _ => e) fs c).2
      (call.answer (fun _ => e') fs' c').2 := by
  simp only [Call.answer, ← run_sourceAnalysis]
  by_cases hl : call.language.family = family
  · obtain ⟨hanswer, hafter⟩ := h.sourceAnalysis hl call.path call.content c c' hc
    exact ⟨fun _ => hanswer, hafter⟩
  · have hapart : ∀ e₀ : Engine, (e₀.sourceAnalysis call.path call.language call.content).AsksOnly
        (·.Apart (FamilyKey family models) family) := fun e₀ =>
      (e₀.asksAbout_sourceAnalysis call.path call.language call.content).mono
        fun _ hr => hr.apart hl
    obtain ⟨-, hafter⟩ := Analysis.related_of_apart (hapart e) (hapart e') c c' hc
    exact ⟨fun hfamily => absurd hfamily hl, hafter⟩

theorem agree_after (h : SameFor family models e e' fs fs') (past : List (Call Unit))
    (hc : Agree (FamilyKey family models) family c c') :
    Agree (FamilyKey family models) family (Call.after (fun _ => e) fs past c)
      (Call.after (fun _ => e') fs' past c') := by
  induction past generalizing c c' with
  | nil => exact hc
  | cons call past ih => exact ih (h.agree_call call hc).2

/-- After the same calls, both engines tell the same about a source in the family. -/
theorem answer_after (h : SameFor family models e e' fs fs') (past : List (Call Unit))
    {call : Call Unit} (hl : call.language.family = family) :
    SameAnswer models (call.answer (fun _ => e) fs (Call.after (fun _ => e) fs past .empty)).1
      (call.answer (fun _ => e') fs' (Call.after (fun _ => e') fs' past .empty)).1 :=
  (h.agree_call call (h.agree_after past (.refl _ _ .empty))).1 hl

end SameFor

/-- Where the digests tell requests apart, earlier calls to the same engine do not matter. -/
theorem answer_after_eq (e : Engine) (fs : FileSystem) (past : List (Call Unit)) (call : Call Unit)
    (hrs : FeatureRequest.NoCollision ((past ++ [call]).flatMap (Call.requests fun _ => e))) :
    (call.answer (fun _ => e) fs (Call.after (fun _ => e) fs past .empty)).1 =
      (call.answer (fun _ => e) fs .empty).1 := by
  have hcall : FeatureRequest.NoCollision (([] ++ [call]).flatMap (Call.requests fun _ => e)) :=
    hrs.mono (Call.requests_subset (List.subset_append_right past [call]))
  exact (Call.answer_own (fun _ _ => rfl) hrs).trans
    (Call.answer_own (fun _ hother => absurd hother List.not_mem_nil) hcall).symm

/-! ## Engines of two states of the files -/

theorem readText_congr {path : String} (h : fs.read path = fs'.read path) :
    fs.readText path = fs'.readText path := by
  rw [FileSystem.readText, FileSystem.readText, h]

theorem isFile_eq (fs : FileSystem) (path : String) : fs.isFile path = (fs.read path).isOk := by
  rw [FileSystem.isFile, FileSystem.read]
  cases fs.resolve path with
  | error fault => rfl
  | ok found =>
    obtain ⟨_, tree⟩ := found
    cases tree <;> rfl

theorem templatesOf_congr {cfg : Config}
    (h : ∀ d t, cfg.queriesDirectory = some d →
      fs.read (TemplateSet.path d family.name t) = fs'.read (TemplateSet.path d family.name t)) :
    templatesOf fs cfg family = templatesOf fs' cfg family := by
  rw [templatesOf, templatesOf]
  cases hd : cfg.queriesDirectory with
  | none => rfl
  | some d =>
    simp only [TemplateSet.load, fun t => readText_congr (h d t hd)]

/-- The path of the query for the data models of a family. -/
def modelPath (d : String) (family : Family) : String :=
  Path.join (Path.join d family.name) "data_model.scm"

theorem querySource_congr {directory : Option String}
    (h : ∀ d, directory = some d →
      fs.read (modelPath d l.family) = fs'.read (modelPath d l.family)) :
    DataModel.querySource fs l directory = DataModel.querySource fs' l directory ∧
      (DataModel.querySource fs l directory).text? fs =
        (DataModel.querySource fs l directory).text? fs' := by
  cases directory with
  | none => exact ⟨rfl, rfl⟩
  | some d =>
    have hread := h d rfl
    have hfile : fs.isFile (modelPath d l.family) = fs'.isFile (modelPath d l.family) := by
      rw [isFile_eq, isFile_eq, hread]
    have htext := readText_congr hread
    simp only [modelPath] at hfile htext
    simp only [DataModel.querySource, hfile, true_and]
    split
    · simp only [QuerySource.text?, htext]
    · rfl

/-- The engine that a configuration asks for, with its catalog and rules. -/
def loaded (fs : FileSystem) (cfg : Config) (catalog : Catalog) (rules : RuleTable) : Engine where
  pythonTemplates := templatesOf fs cfg .python
  typescriptTemplates := templatesOf fs cfg .typescript
  modelQueries := Language.all.map fun l => (l, DataModel.querySource fs l cfg.queriesDirectory)
  catalog := catalog
  rules := rules

theorem ofConfig_eq (fs : FileSystem) (cfg : Config) : ofConfig fs cfg = (do
    let catalog ← catalogOf fs cfg
    let rules ← rulesOf fs cfg
    return loaded fs cfg catalog rules) := rfl

theorem templates_loaded (fs : FileSystem) (cfg : Config) (catalog : Catalog) (rules : RuleTable)
    (family : Family) : (loaded fs cfg catalog rules).templates family =
      templatesOf fs cfg family := by
  cases family <;> rfl

theorem modelSource?_loaded (fs : FileSystem) (cfg : Config) (catalog : Catalog)
    (rules : RuleTable) (l : Language) : (loaded fs cfg catalog rules).modelSource? l =
      some (DataModel.querySource fs l cfg.queriesDirectory) := by
  have hfound : ∀ source : Language → QuerySource,
      ((Language.all.map fun l => (l, source l)).find? (·.1 == l)).map (·.2) =
        some (source l) := by
    intro source
    cases l <;> rfl
  exact hfound fun l => DataModel.querySource fs l cfg.queriesDirectory

theorem sameFor_loaded {cfg : Config} (catalog : Catalog) (rules : RuleTable)
    (htemplates : templatesOf fs cfg family = templatesOf fs' cfg family)
    (hmodels : models → ∀ d, cfg.queriesDirectory = some d →
      fs.read (modelPath d family) = fs'.read (modelPath d family)) :
    SameFor family models (loaded fs cfg catalog rules) (loaded fs' cfg catalog rules) fs fs' := by
  refine ⟨?_, rfl, fun h l hl => ?_⟩
  · rw [templates_loaded, templates_loaded, htemplates]
  · subst hl
    obtain ⟨hsource, htext⟩ := querySource_congr (hmodels h)
    rw [modelSource?_loaded, modelSource?_loaded, hsource]
    refine ⟨rfl, fun s hs => ?_⟩
    obtain rfl := Option.some.inj hs
    rw [← hsource]
    exact htext

/-- **Broken queries are contained.** Where two states of the files have the same templates for a
family, and a configuration asks for the same catalog and rules in both, engines can be had in
both or in neither. They then tell the same about every source in the family, but for data models
if the queries for them are not the same: after the same calls, or after any calls at all where
the digests tell requests apart. -/
theorem analyses_contained (cfg : Config) (family : Family) (fs fs' : FileSystem)
    (hcatalog : catalogOf fs cfg = catalogOf fs' cfg) (hrules : rulesOf fs cfg = rulesOf fs' cfg)
    (htemplates : ∀ d t, cfg.queriesDirectory = some d →
      fs.read (TemplateSet.path d family.name t) = fs'.read (TemplateSet.path d family.name t)) :
    let sameModels := ∀ d, cfg.queriesDirectory = some d →
      fs.read (modelPath d family) = fs'.read (modelPath d family)
    match ofConfig fs cfg, ofConfig fs' cfg with
    | .ok e, .ok e' => ∀ (past past' : List (Call Unit)) (call : Call Unit),
        call.language.family = family →
        past' = past ∨
          FeatureRequest.NoCollision ((past ++ [call]).flatMap (Call.requests fun _ => e)) ∧
          FeatureRequest.NoCollision ((past' ++ [call]).flatMap (Call.requests fun _ => e')) →
        SameAnswer sameModels
          (call.answer (fun _ => e) fs (Call.after (fun _ => e) fs past .empty)).1
          (call.answer (fun _ => e') fs' (Call.after (fun _ => e') fs' past' .empty)).1
    | .error fault, .error fault' => fault = fault'
    | _, _ => False := by
  intro sameModels
  rw [ofConfig_eq, ofConfig_eq, ← hcatalog, ← hrules]
  cases catalogOf fs cfg with
  | error fault => rfl
  | ok catalog =>
    cases rulesOf fs cfg with
    | error fault => rfl
    | ok rules =>
      have hsame : SameFor family sameModels (loaded fs cfg catalog rules)
          (loaded fs' cfg catalog rules) fs fs' :=
        sameFor_loaded catalog rules (templatesOf_congr htemplates) id
      intro past past' call hl hpast
      rcases hpast with rfl | ⟨hrs, hrs'⟩
      · exact hsame.answer_after _ hl
      · rw [answer_after_eq _ fs past call hrs, answer_after_eq _ fs' past' call hrs']
        exact hsame.answer_after [] hl

/-- One state has no files for TypeScript and no query for data models, the other one has broken
ones. In both there are engines, and what these tell about a Python source differs at most in
data models. -/
theorem analyses_contained_brokenFiles :
    let templates : List (String × FileTree) :=
      Template.all.map fun t => (t.fileName, .file "(_) @target".toUTF8)
    let broken : String × FileTree := ("data_model.scm", .file "(".toUTF8)
    let files (families : List (String × FileTree)) : FileSystem :=
      ⟨.directory [("queries", .directory families)], []⟩
    let fs := files [("python", .directory templates)]
    let fs' := files
      [("python", .directory (templates ++ [broken])), ("typescript", .directory [broken])]
    let cfg : Config :=
      { Config.default with queriesDirectory := some "/queries", includeBuiltinCatalog := false }
    ∃ e e', ofConfig fs cfg = .ok e ∧ ofConfig fs' cfg = .ok e' ∧
      ∀ (past : List (Call Unit)) (path : String) (content : ByteArray),
        UpToModels
          (e.analyzeSource fs path .python content (Call.after (fun _ => e) fs past .empty)).1
          (e'.analyzeSource fs' path .python content
            (Call.after (fun _ => e') fs' past .empty)).1 := by
  intro templates broken files fs fs' cfg
  have hrules : ∃ rules, RuleTable.builtin = .ok rules := by
    simp only [← Detector.toOption_eq_some_iff, ← Option.isSome_iff_exists]
    decide +kernel
  obtain ⟨rules, hrules⟩ := hrules
  have hengine : ∀ fs, ofConfig fs cfg = .ok (loaded fs cfg .empty rules) := by
    intro fs
    rw [ofConfig_eq]
    have hread : rulesOf fs cfg = .ok rules := hrules
    rw [hread]
    rfl
  have hfirst : ∀ t, fs.read (TemplateSet.path "/queries" "python" t) =
      .ok "(_) @target".toUTF8 := by
    intro t
    refine Detector.toOption_eq_some_iff.mp ?_
    cases t <;> decide +kernel
  have hsecond : ∀ t, fs'.read (TemplateSet.path "/queries" "python" t) =
      .ok "(_) @target".toUTF8 := by
    intro t
    refine Detector.toOption_eq_some_iff.mp ?_
    cases t <;> decide +kernel
  have htemplates : ∀ d t, cfg.queriesDirectory = some d →
      fs.read (TemplateSet.path d Family.python.name t) =
        fs'.read (TemplateSet.path d Family.python.name t) := by
    intro d t hd
    obtain rfl : "/queries" = d := Option.some.inj hd
    exact (hfirst t).trans (hsecond t).symm
  have hcontained := analyses_contained cfg .python fs fs' rfl rfl htemplates
  rw [hengine, hengine] at hcontained
  refine ⟨_, _, hengine fs, hengine fs', fun past path content => ?_⟩
  exact (hcontained past past ⟨(), path, .python, content⟩ rfl (Or.inl rfl)).1

end Engine

end SourceFacts
