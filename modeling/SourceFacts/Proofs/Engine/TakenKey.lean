import SourceFacts.Proofs.Engine.SharedCache
import SourceFacts.Proofs.Query.Walk
import SourceFacts.Proofs.Query.Words

/-!
# Keys that another engine has taken

The key of the query for data models names a language and nothing else. In a language without
outlines, the first engine that is asked takes it (`Call.bound?_answer_first`) and, because what
is bound stays bound, for good: an engine with another query finds no data models from then on,
whatever is asked meanwhile (`Call.dataModels_of_taken`). With a cache of its own it might find
them in any source (`DataModel.byQuery_anyNode_ne_nil`, `Call.answer_shared_ne`).
-/

namespace SourceFacts

namespace Engine

variable {e : Engine} {fs : FileSystem} {c : QueryCache} {l : Language}
variable {p : ParsedSource} {s : QuerySource} {key : String} {b : BoundSet}

/-- Sets stay bound while data models are asked for. -/
theorem bound?_dataModels (hb : c.bound? key = some b) (o : Outline) :
    (e.dataModels fs p o c).2.bound? key = some b := by
  rw [dataModels_eq]
  split
  · exact hb
  · split
    · exact QueryCache.bound?_querySet hb _ _ _
    · exact hb

theorem bound?_extract (hb : c.bound? key = some b) (fs : FileSystem) (l : Language)
    (t : Syntax.SourceText) (root : Syntax.Node) :
    (Outline.extract fs l t root c).2.bound? key = some b := by
  cases l with
  | python =>
    rw [Outline.extract_python]
    exact QueryCache.bound?_querySet hb Outline.queryKey .python [Outline.querySource]
  | typescript => exact hb
  | tsx => exact hb

theorem bound?_detect (hb : c.bound? key = some b) (p : ParsedSource) (templates : TemplateSet)
    (features : List Feature) :
    (Detector.detect p templates features c).2.bound? key = some b := by
  rw [QueryCache.bound?_congr (Detector.sets_detect p templates features c)]
  exact hb

/-- Sets stay bound while a source is analysed. -/
theorem bound?_analyzeSource (hb : c.bound? key = some b) (path : String) (l : Language)
    (content : ByteArray) : (e.analyzeSource fs path l content c).2.bound? key = some b := by
  unfold analyzeSource
  split
  · exact hb
  · rename_i text htext
    split
    · exact hb
    · rename_i templates htemplates
      have hextract := bound?_extract hb fs l (ParsedSource.ofText l text).text
        (ParsedSource.ofText l text).root
      unfold factsOfText
      dsimp only
      split
      · rename_i fault c' hfault
        rw [hfault] at hextract
        exact hextract
      · rename_i outline c' houtline
        rw [houtline] at hextract
        exact bound?_dataModels (bound?_detect hextract _ _ _) _

/-- The facts of a text in a language without outlines: data models are what their query tells. -/
theorem factsOfText_of_ne_python (hl : l ≠ .python) (hs : e.modelSource? l = some s)
    (fs : FileSystem) (templates : TemplateSet) (path text : String) (c : QueryCache) :
    ∃ (facts : FileFacts) (c' : QueryCache), c'.sets = c.sets ∧
      let result := c'.querySet fs (DataModel.queryKey l) l [s]
      e.factsOfText fs templates path l text c = (.ok facts, result.2) ∧
        facts.dataModels = modelsOf (.ofText l text) result.1 := by
  let p := ParsedSource.ofText l text
  let found := Detector.detect p templates (e.catalog.features l) c
  let models := e.dataModels fs p .empty found.2
  let facts : FileFacts :=
    { path, language := l, context := p.context, detections := found.1, dataModels := models.1
      outline := Outline.empty.inCallOrder }
  have hfacts : e.factsOfText fs templates path l text c = (.ok facts, models.2) := by
    cases l with
    | python => exact absurd rfl hl
    | typescript => rfl
    | tsx => rfl
  have hmodels : models =
      (modelsOf p (found.2.querySet fs (DataModel.queryKey l) l [s]).1,
        (found.2.querySet fs (DataModel.queryKey l) l [s]).2) := by
    have hsource : e.modelSource? p.language = some s := hs
    have hshown : shownModels p .empty = [] := if_neg hl
    simp only [models, dataModels_eq, hsource, hshown, List.isEmpty_nil, if_true]
    rfl
  refine ⟨facts, found.2, Detector.sets_detect p templates (e.catalog.features l) c, ?_, ?_⟩
  · rw [hfacts, hmodels]
  · exact congrArg Prod.fst hmodels

theorem analyzeSource_of_text {path text : String} {content : ByteArray}
    {templates : TemplateSet} (htext : textOf path content = .ok text)
    (htemplates : e.templates l.family = .ok templates) :
    e.analyzeSource fs path l content c = e.factsOfText fs templates path l text c := by
  simp only [analyzeSource, htext, htemplates]

/-- A source that is analysed has a text, and templates for its language. -/
theorem exists_text_of_analyzeSource {path : String} {content : ByteArray} {facts : FileFacts}
    (h : (e.analyzeSource fs path l content c).1 = .ok facts) :
    ∃ text templates, textOf path content = .ok text ∧ e.templates l.family = .ok templates := by
  cases htext : textOf path content with
  | error fault =>
    simp only [analyzeSource, htext] at h
    cases h
  | ok text =>
    cases htemplates : e.templates l.family with
    | error fault =>
      simp only [analyzeSource, htext, htemplates] at h
      cases h
    | ok templates => exact ⟨text, templates, rfl, rfl⟩

end Engine

/-! ## A query that finds models everywhere -/

namespace DataModel

/-- What `(_) @model @model_name` is compiled to: any node is a model, and its own name. -/
def anyNode : Query where
  steps := #[{ Query.Step.plain (.any true) (some 0) false with
    captures := [0, 1], splits := true }, .finish]
  entries := [⟨0, 0⟩]
  predicates := #[[]]
  captureNames := #["model", "model_name"]

theorem firstOfName_ne_nil {models : List Model} (h : models ≠ []) :
    firstOfName [] models ≠ [] := by
  cases models with
  | nil => exact absurd rfl h
  | cons m models => simp [firstOfName]

/-- The root of a tree is a model, whatever is in it. -/
theorem byQuery_anyNode_ne_nil {p : ParsedSource} (hroot : p.root.named = true) :
    byQuery anyNode p ≠ [] := by
  let m : Query.Match := ⟨0, [⟨0, .root p.root⟩, ⟨1, .root p.root⟩]⟩
  have hm : m ∈ anyNode.matchesOf p.text p.root := by
    refine Query.mem_matchesOf_of_enter ?_ (by simp [anyNode, m])
    generalize hnode : p.root = root at hroot
    obtain ⟨kind, named, role, span, children⟩ := root
    obtain rfl : named = true := hroot
    simp only [m, hnode]
    cases role <;> exact List.mem_singleton_self _
  have hmodel : anyNode.captureIndex? "model" = some 0 := by decide +kernel
  have hname : anyNode.captureIndex? "model_name" = some 1 := by decide +kernel
  have hshows : modelOf? p.text anyNode m =
      some (p.text.textOf p.root, p.root.span.firstLine, p.root.span.lastLine) := by
    rw [modelOf?, hmodel, hname]
    rfl
  exact firstOfName_ne_nil (List.ne_nil_of_mem (List.mem_filterMap.mpr ⟨m, hm, hshows⟩))

theorem readQuery_anyNode :
    FeatureQuery.readQuery .typescript "data_model" "(_) @model @model_name" = .ok anyNode := by
  have hread : Query.ofText Language.typescript.vocabulary "(_) @model @model_name" =
      .ok anyNode := Query.ofText_of_readsAs (by decide +kernel)
  rw [FeatureQuery.readQuery, hread]

end DataModel

/-! ## Runs of calls -/

namespace Call

variable {ι : Type} {engines : ι → Engine} {fs : FileSystem} {c : QueryCache}
variable {call : Call ι} {s : QuerySource}

theorem bound?_after {key : String} {b : BoundSet} (hb : c.bound? key = some b)
    (engines : ι → Engine) (fs : FileSystem) (calls : List (Call ι)) :
    (after engines fs calls c).bound? key = some b := by
  induction calls generalizing c with
  | nil => exact hb
  | cons call calls ih => exact ih (Engine.bound?_analyzeSource hb _ _ _)

/-- The answer to a call in a language without outlines: data models are what their query tells. -/
theorem answer_of_ne_python {text : String} {templates : TemplateSet}
    (hl : call.language ≠ .python) (hs : call.modelSource? engines = some s)
    (htext : Engine.textOf call.path call.content = .ok text)
    (htemplates : (engines call.engine).templates call.language.family = .ok templates)
    (fs : FileSystem) (c : QueryCache) : ∃ (facts : FileFacts) (c' : QueryCache),
      c'.sets = c.sets ∧
      let result := c'.querySet fs (DataModel.queryKey call.language) call.language [s]
      call.answer engines fs c = (.ok facts, result.2) ∧
        facts.dataModels = Engine.modelsOf (.ofText call.language text) result.1 := by
  rw [answer, Engine.analyzeSource_of_text htext htemplates]
  exact Engine.factsOfText_of_ne_python hl hs fs templates call.path text c

/-- The first call that asks for a query for data models takes the key for it. -/
theorem bound?_answer_first {set : QuerySet} {facts : FileFacts} (hl : call.language ≠ .python)
    (hs : call.modelSource? engines = some s)
    (hset : QuerySet.compile fs call.language [s] = .ok set)
    (hfree : c.bound? (DataModel.queryKey call.language) = none)
    (hfacts : (call.answer engines fs c).1 = .ok facts) :
    (call.answer engines fs c).2.bound? (DataModel.queryKey call.language) =
      some ⟨call.language, [s], set⟩ := by
  obtain ⟨text, templates, htext, htemplates⟩ := Engine.exists_text_of_analyzeSource hfacts
  obtain ⟨_, c', hsets, hanswer, -⟩ := answer_of_ne_python hl hs htext htemplates fs c
  rw [← QueryCache.bound?_congr hsets] at hfree
  rw [hanswer]
  simp only [QueryCache.querySet, hfree, hset]
  simp [QueryCache.bound?]

/-- Once the key of a language without outlines belongs to another query, an engine finds no data
models in that language, whatever is asked before. -/
theorem dataModels_of_taken {b : BoundSet} {facts : FileFacts} (hl : call.language ≠ .python)
    (hs : call.modelSource? engines = some s)
    (hb : c.bound? (DataModel.queryKey call.language) = some b) (hother : b.sources ≠ [s])
    (calls : List (Call ι))
    (hfacts : (call.answer engines fs (after engines fs calls c)).1 = .ok facts) :
    facts.dataModels = .none := by
  obtain ⟨text, templates, htext, htemplates⟩ := Engine.exists_text_of_analyzeSource hfacts
  obtain ⟨facts', c', hsets, hanswer, hmodels⟩ :=
    answer_of_ne_python hl hs htext htemplates fs (after engines fs calls c)
  have hbound : c'.bound? (DataModel.queryKey call.language) = some b := by
    rw [QueryCache.bound?_congr hsets]
    exact bound?_after hb engines fs calls
  rw [hanswer] at hfacts
  obtain rfl : facts' = facts := Except.ok.inj hfacts
  rw [hmodels]
  simp only [QueryCache.querySet, hbound, hother, and_false, if_false]
  rfl

/-- Two engines have queries of their own in two directories. Where the first one is asked before,
the second does not find the data model that it finds through a cache of its own. -/
theorem answer_shared_ne :
    let directory (query : String) : FileTree :=
      .directory [("typescript", .directory [("data_model.scm", .file query.toUTF8)])]
    let fs : FileSystem :=
      ⟨.directory [("a", directory "(_) @model"), ("b", directory "(_) @model @model_name")], []⟩
    let engines (second : Bool) : Engine :=
      { pythonTemplates := .ok (.builtin .python)
        typescriptTemplates := .ok (.builtin .typescript)
        modelQueries := [(.typescript,
          DataModel.querySource fs .typescript (some (if second then "/b" else "/a")))]
        catalog := .empty, rules := ⟨[]⟩ }
    let call (second : Bool) : Call Bool :=
      ⟨second, "a.ts", .typescript, "class A \x7b\x7d\n".toUTF8⟩
    let past := [call false]
    ((call true).answer engines fs (after engines fs past .empty)).1 ≠
      ((call true).answer engines fs
        (after engines fs (past.filter (·.engine = (call true).engine)) .empty)).1 := by
  intro directory fs engines call past hsame
  let a : QuerySource := ⟨"data_model", .file "/a/typescript/data_model.scm", false⟩
  let b : QuerySource := ⟨"data_model", .file "/b/typescript/data_model.scm", false⟩
  have hfirst : (call false).modelSource? engines = some a := by decide +kernel
  have hsecond : (call true).modelSource? engines = some b := by decide +kernel
  have hl : Language.typescript ≠ .python := by decide
  have htext : Engine.textOf "a.ts" (call true).content = .ok "class A \x7b\x7d\n" :=
    Detector.toOption_eq_some_iff.mp (by decide +kernel)
  -- The first engine takes the key.
  obtain ⟨set, hset⟩ : ∃ set, QuerySet.compile fs .typescript [a] = .ok set := by
    simp only [← Detector.toOption_eq_some_iff, ← Option.isSome_iff_exists]
    decide +kernel
  obtain ⟨first, c, -, hasked, -⟩ := answer_of_ne_python hl hfirst htext rfl fs .empty
  have htaken : (after engines fs past .empty).bound? (DataModel.queryKey .typescript) =
      some ⟨.typescript, [a], set⟩ :=
    bound?_answer_first hl hfirst hset rfl (congrArg Prod.fst hasked)
  -- With a cache of its own the second engine finds the root of the tree.
  obtain ⟨own, c', hsets, hown, hmodels⟩ :=
    answer_of_ne_python hl hsecond htext rfl fs .empty
  have hread : b.text? fs = .ok (some "(_) @model @model_name") :=
    Detector.toOption_eq_some_iff.mp (by decide +kernel)
  have hanyNode : QuerySet.compile fs .typescript [b] =
      .ok ⟨[("data_model", DataModel.anyNode)]⟩ :=
    QuerySet.compile_singleton hread DataModel.readQuery_anyNode
  have hfree : c'.bound? (DataModel.queryKey .typescript) = none := by
    rw [QueryCache.bound?_congr hsets]
    rfl
  have hasks : (c'.querySet fs (DataModel.queryKey .typescript) .typescript [b]).1 =
      .ok ⟨[("data_model", DataModel.anyNode)]⟩ := by
    simp only [QueryCache.querySet, hfree, hanyNode]
  let p := ParsedSource.ofText .typescript "class A \x7b\x7d\n"
  have htells : own.dataModels = DataModel.detectionOf (DataModel.byQuery DataModel.anyNode p) :=
    hmodels.trans (congrArg (Engine.modelsOf p) hasks)
  have hmodel : DataModel.byQuery DataModel.anyNode p ≠ [] :=
    DataModel.byQuery_anyNode_ne_nil rfl
  have hfound : own.dataModels.found = true := by
    rw [htells, DataModel.detectionOf, if_neg (by simpa using hmodel)]
  -- Through the shared cache it does not.
  have hother : [a] ≠ [b] := by decide
  have hnone : own.dataModels = .none :=
    dataModels_of_taken hl hsecond htaken hother [] (hsame.trans (congrArg Prod.fst hown))
  rw [hnone] at hfound
  cases hfound

end Call

end SourceFacts
