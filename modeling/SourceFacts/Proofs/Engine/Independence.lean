import Mathlib.Logic.Hydra
import SourceFacts.Proofs.Engine.OwnCache

/-!
# Analyses of one engine do not matter to each other

What an engine tells about a source does not depend on what it was asked before, and what it
tells about files depends neither on their order nor on which of them are analysed at the same
time (`Engine.analyses_independent`).

Files that are analysed at the same time are a pool of analyses (`Pool`) in which one request is
served after the other, of whichever analysis. Each step leaves alone what the analyses come to by
themselves (`Pool.Yields.step`), so it is left alone all along (`Pool.Yields.run`). No pool goes
on for ever (`Pool.wellFounded_step`), and where a pool cannot go on all its analyses have their
results (`Pool.Yields.done_of_stuck`).
-/

namespace SourceFacts

variable {α : Type} {e : Engine} {fs : FileSystem} {c : QueryCache}

/-! ## Pools of analyses -/

/-- What an analysis goes on as when it gets an answer. -/
inductive Analysis.Continues : Analysis α → Analysis α → Prop
  | answer (r : CacheRequest) (next : r.Answer → Analysis α) (answer : r.Answer) :
      Continues (next answer) (.ask r next)

theorem Analysis.wellFounded_continues : WellFounded (@Analysis.Continues α) := by
  refine ⟨fun a => ?_⟩
  induction a with
  | done x =>
    refine ⟨_, fun a' h => ?_⟩
    cases h
  | ask r next ih =>
    refine ⟨_, fun a' h => ?_⟩
    cases h with
    | answer _ _ answer => exact ih answer

/-- Analyses that go on at the same time, with the cache that they share. -/
structure Pool (α : Type) where
  analyses : List (Analysis α)
  cache : QueryCache

namespace Pool

/-- One of the analyses in a pool, whichever it is, gets the answer to its request. -/
inductive Step (fs : FileSystem) : Pool α → Pool α → Prop
  | serve (front : List (Analysis α)) (r : CacheRequest) (next : r.Answer → Analysis α)
      (back : List (Analysis α)) (c : QueryCache) :
      Step fs ⟨front ++ .ask r next :: back, c⟩
        ⟨front ++ next (r.serve fs c).1 :: back, (r.serve fs c).2⟩

/-- A step puts one analysis in place of one that continues as it. -/
theorem Step.cutExpand {pool next : Pool α} (h : Step fs pool next) :
    Relation.CutExpand Analysis.Continues (next.analyses : Multiset (Analysis α))
      (pool.analyses : Multiset (Analysis α)) := by
  obtain ⟨front, r, next, back, c⟩ := h
  have hmiddle : ∀ a : Analysis α,
      Multiset.ofList (front ++ a :: back) = {a} + Multiset.ofList (front ++ back) := by
    intro a
    rw [Multiset.singleton_add, Multiset.cons_coe]
    exact Multiset.coe_eq_coe.mpr List.perm_middle
  rw [hmiddle, hmiddle]
  exact Relation.cutExpand_single_add (.answer r next _) _

/-- No pool goes on for ever. -/
theorem wellFounded_step (fs : FileSystem) :
    WellFounded fun next pool : Pool α => Step fs pool next := by
  -- An analysis can go on in as many ways as there are answers, so its requests cannot be counted.
  let contents (pool : Pool α) : Multiset (Analysis α) := pool.analyses
  have hcut := InvImage.wf contents (WellFounded.cutExpand Analysis.wellFounded_continues)
  exact Subrelation.wf Step.cutExpand hcut

/-- The analyses of a pool ask for what an engine asks for, come to given results by themselves,
and share a cache of the engine's own. -/
structure Yields (e : Engine) (fs : FileSystem) (results : List α) (pool : Pool α) : Prop where
  asksOnly : ∀ a ∈ pool.analyses, a.AsksOnly e.Asks
  results : pool.analyses.map (·.result fs) = results
  ownCache : e.OwnCache fs pool.cache

namespace Yields

variable {results : List α} {pool next last : Pool α}

theorem step (h : Yields e fs results pool) (hrs : FeatureRequest.NoCollision e.allRequests)
    (hstep : Step fs pool next) : Yields e fs results next := by
  obtain ⟨front, r, next, back, c⟩ := hstep
  have hask : (Analysis.ask r next).AsksOnly e.Asks := h.asksOnly _ (by simp)
  -- Whatever others have left in the cache, the answer is the one that the analysis gets by itself.
  obtain ⟨hanswer, hafter⟩ := h.ownCache.serve hrs hask.1
  refine ⟨fun a ha => ?_, ?_, hafter⟩
  · rcases List.mem_append.mp ha with hfront | hback
    · exact h.asksOnly a (List.mem_append_left _ hfront)
    · rcases List.mem_cons.mp hback with rfl | hback
      · exact hask.2 _
      · exact h.asksOnly a (List.mem_append_right _ (List.mem_cons_of_mem _ hback))
  · rw [← h.results]
    simp only [List.map_append, List.map_cons, Analysis.result, hanswer]

theorem run (h : Yields e fs results pool) (hrs : FeatureRequest.NoCollision e.allRequests)
    (hrun : Relation.ReflTransGen (Step fs) pool last) : Yields e fs results last := by
  induction hrun with
  | refl => exact h
  | tail _ hstep ih => exact ih.step hrs hstep

/-- Where no request is left to be served, all analyses have their results. -/
theorem done_of_stuck (h : Yields e fs results pool) (hstuck : ∀ next, ¬ Step fs pool next) :
    pool.analyses = results.map .done := by
  have hdone : ∀ a ∈ pool.analyses, Analysis.done (a.result fs) = a := by
    intro a ha
    cases a with
    | done x => rfl
    | ask r next =>
      obtain ⟨analyses, c⟩ := pool
      obtain ⟨front, back, rfl⟩ := List.append_of_mem ha
      exact absurd (.serve front r next back c) (hstuck _)
  rw [← h.results, List.map_map]
  exact ((List.map_congr_left hdone).trans (List.map_id _)).symm

end Yields

end Pool

/-! ## Earlier calls -/

/-- A source that an engine was asked about, with the files as they were then. -/
structure SourceCall where
  files : FileSystem
  path : String
  language : Language
  content : ByteArray

namespace Engine

/-- The cache of an engine after some calls. -/
def cacheAfter (e : Engine) (past : List SourceCall) : QueryCache :=
  past.foldl (fun c call => (e.analyzeSource call.files call.path call.language call.content c).2)
    .empty

theorem ownCache_cacheAfter {past : List SourceCall}
    (hrs : FeatureRequest.NoCollision e.allRequests)
    (hpast : ∀ call ∈ past, e.SameQueries fs call.files) : e.OwnCache fs (e.cacheAfter past) := by
  -- Calls are added at the end, where the cache of those before is at hand.
  induction past using List.reverseRecOn with
  | nil => exact e.ownCache_empty fs
  | append_singleton past call ih =>
    have hbefore := ih fun other hother => hpast other (List.mem_append_left _ hother)
    have hafter := (hbefore.analyzeSource hrs call.path call.language call.content).2
    rw [(hpast call (by simp)).analyzeSource] at hafter
    rw [cacheAfter, List.foldl_append]
    exact hafter

/-- **What analyses of one engine have to do with each other.** With the queries for data models
on disk fixed, and whatever the engine was asked before: a source yields what it yields to an
engine that was never asked; files yield one result for each path, in order, which is what the
file yields to an engine that was never asked; other orders of the same files yield the same
results in that order; a result depends on nothing but the path and the content of its file,
whatever was asked before and whatever other files there are. And if the files are analysed at the
same time, their requests served one by one in whatever order, this comes to an end, and to these
same results. -/
theorem analyses_independent (e : Engine) (fs : FileSystem) (past : List SourceCall)
    (hrs : FeatureRequest.NoCollision e.allRequests)
    (hpast : ∀ call ∈ past, e.SameQueries fs call.files) :
    let c := e.cacheAfter past
    (∀ fs', e.SameQueries fs fs' → ∀ path l content,
      (e.analyzeSource fs path l content c).1 = (e.analyzeSource fs' path l content .empty).1) ∧
    (∀ paths, (e.analyzeFiles fs paths c).1 =
      paths.map fun path => (path, (e.analyzeFile fs path .empty).1)) ∧
    (∀ paths paths', paths.Perm paths' →
      (e.analyzeFiles fs paths c).1.Perm (e.analyzeFiles fs paths' c).1) ∧
    (∀ fs' past', e.SameQueries fs fs' → (∀ call ∈ past', e.SameQueries fs call.files) →
      ∀ (paths paths' : List String) (i j : Nat) (path : String),
        paths[i]? = some path → paths'[j]? = some path → contentOf fs path = contentOf fs' path →
        (e.analyzeFiles fs paths c).1[i]? =
          (e.analyzeFiles fs' paths' (e.cacheAfter past')).1[j]?) ∧
    ∀ paths,
      let start : Pool (Except EngineError FileFacts) := ⟨paths.map (e.fileAnalysis fs), c⟩
      Acc (fun next pool => Pool.Step fs pool next) start ∧
      ∀ last, Relation.ReflTransGen (Pool.Step fs) start last →
        (∀ next, ¬ Pool.Step fs last next) →
        last.analyses = (e.analyzeFiles fs paths c).1.map fun entry => .done entry.2 := by
  intro c
  have hown : e.OwnCache fs c := ownCache_cacheAfter hrs hpast
  refine ⟨?_, hown.analyzeFiles_eq_map hrs, ?_, ?_, ?_⟩
  · intro fs' hsame path l content
    rw [← hsame.analyzeSource path l content .empty, (hown.analyzeSource hrs path l content).1,
      ((e.ownCache_empty fs).analyzeSource hrs path l content).1]
  · intro paths paths' hperm
    rw [hown.analyzeFiles_eq_map hrs, hown.analyzeFiles_eq_map hrs]
    exact hperm.map _
  · intro fs' past' hsame hpast' paths paths' i j path hi hj hcontent
    have hown' : e.OwnCache fs' (e.cacheAfter past') :=
      ownCache_cacheAfter hrs fun call hcall l s hs =>
        (hsame l s hs).symm.trans (hpast' call hcall l s hs)
    rw [hown.analyzeFiles_eq_map hrs, hown'.analyzeFiles_eq_map hrs, List.getElem?_map,
      List.getElem?_map, hi, hj, Option.map_some, Option.map_some, hsame.analyzeFile hcontent]
  · intro paths start
    refine ⟨(Pool.wellFounded_step fs).apply start, fun last hrun hstuck => ?_⟩
    let results := paths.map fun path => (e.fileAnalysis fs path).result fs
    have hstart : Pool.Yields e fs results start := by
      refine ⟨fun a ha => ?_, List.map_map, hown⟩
      obtain ⟨path, -, rfl⟩ := List.mem_map.mp ha
      exact e.asksOnly_fileAnalysis fs path
    rw [(hstart.run hrs hrun).done_of_stuck hstuck, hown.analyzeFiles hrs, List.map_map,
      List.map_map]
    rfl

theorem analyses_independent_queryOnDisk :
    let f : Feature :=
      { key := "app", library := "fastapi", paths := ["fastapi.FastAPI"], target := .function
        concept := .call, strategy := .direct, constructs := none, description := ""
        startpoint := false }
    let templates : TemplateSet :=
      { family := "python", decoratorClass := "", decoratorFunction := ""
        callExpression := "(_ (_) @callee) @target", inheritance := "" }
    let e : Engine :=
      { pythonTemplates := .ok templates
        typescriptTemplates := .error (.unsupportedLanguage "typescript")
        modelQueries := [(.python, ⟨"data_model", .file "q.scm", false⟩)]
        catalog := ⟨[f], []⟩, rules := ⟨[]⟩ }
    let files (a : String) : FileSystem :=
      ⟨.directory [("a.py", .file a.toUTF8), ("b.py", .file "class B: pass".toUTF8),
        ("q.scm", .file "(_ name: (_) @model_name) @model".toUTF8)], []⟩
    let fs := files "from fastapi import FastAPI"
    let past : List SourceCall := [⟨files "", "a.py", .python, "class A: pass".toUTF8⟩]
    FeatureRequest.NoCollision e.allRequests ∧
      (∀ call ∈ past, e.SameQueries fs call.files) ∧
      (e.analyzeFiles fs ["b.py", "a.py"] (e.cacheAfter past)).1 =
        [("b.py", (e.analyzeFile fs "b.py" .empty).1),
          ("a.py", (e.analyzeFile fs "a.py" .empty).1)] := by
  intro f templates e files fs past
  have hrequests : e.allRequests = [⟨.python, templates, f⟩] := rfl
  have hrs : FeatureRequest.NoCollision e.allRequests := by
    rw [hrequests]
    refine .of_alike ⟨.python, templates, f⟩ fun r hr => ?_
    obtain rfl := List.mem_singleton.mp hr
    exact ⟨rfl, rfl⟩
  have hpast : ∀ call ∈ past, e.SameQueries fs call.files := by
    intro call hcall l s hs
    obtain rfl := List.mem_singleton.mp hcall
    cases l with
    | python =>
      obtain rfl := Option.some.inj hs
      decide +kernel
    | typescript => cases hs
    | tsx => cases hs
  exact ⟨hrs, hpast, (analyses_independent e fs past hrs hpast).2.1 ["b.py", "a.py"]⟩

end Engine

end SourceFacts
