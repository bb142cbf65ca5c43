import Mathlib.Data.List.Basic
import SourceFacts.Proofs.QueryCache.Sets

/-!
# Runs of requests for sets of queries

A key belongs for good to the language and the sources of its first success, whatever becomes of
the files (`run_bindsOnce`). Later requests with the same language and sources share the set of
that success, others find the key taken; as long as there was no success, the key is free.

That the cache binds exactly the keys that succeeded, each as its first success has it (`Binds`),
is kept by each step (`Binds.step`), and so it holds all along a run (`Binds.run`).
-/

namespace SourceFacts

/-- A request for a set of queries, with the files as they are when it is made. -/
structure SetRequest where
  files : FileSystem
  key : String
  language : Language
  sources : List QuerySource

namespace SetRequest

/-- The set, made anew. -/
def compiled (r : SetRequest) : Except ConfigError QuerySet :=
  QuerySet.compile r.files r.language r.sources

/-- The answer to a request, with the cache that it leaves. -/
def serve (r : SetRequest) (c : QueryCache) : Except ConfigError QuerySet × QueryCache :=
  c.querySet r.files r.key r.language r.sources

end SetRequest

/-- A request that was served, with its answer and the cache before and after. -/
structure SetStep where
  request : SetRequest
  before : QueryCache
  answer : Except ConfigError QuerySet
  after : QueryCache

/-! ## Names -/

namespace QuerySource

variable {fs : FileSystem} {l : Language} {s : QuerySource}

end QuerySource

namespace SetStep

variable {past : List SetStep} {s s' : SetStep} {rs : List SetRequest} {r : SetRequest}
variable {c : QueryCache} {key : String} {set : QuerySet}

/-- The step in which a cache serves a request. -/
def of (r : SetRequest) (c : QueryCache) : SetStep := ⟨r, c, (r.serve c).1, (r.serve c).2⟩

/-- The steps of a run: each begins with the cache that the one before leaves. -/
def run : List SetRequest → QueryCache → List SetStep
  | [], _ => []
  | r :: rs, c => of r c :: run rs (of r c).after

/-- The first step that got a set under a key. -/
def first? (steps : List SetStep) (key : String) : Option SetStep :=
  steps.find? fun s => s.request.key == key && s.answer.isOk

/-- Two steps share one set: both gave out what is bound to their key at one place of the cache,
counted from the oldest set. -/
def Share (s s' : SetStep) : Prop :=
  ∃ (place : Nat) (b : BoundSet),
    s.answer = .ok b.set ∧ s.after.sets.reverse[place]? = some (s.request.key, b) ∧
    s'.answer = .ok b.set ∧ s'.after.sets.reverse[place]? = some (s'.request.key, b)

/-- What the set of a step is bound with. -/
def binding? (s : SetStep) : Option BoundSet :=
  s.answer.toOption.map fun set => ⟨s.request.language, s.request.sources, set⟩

theorem served_of {answer : Except ConfigError QuerySet} {after : QueryCache}
    (h : c.querySet r.files r.key r.language r.sources = (answer, after)) :
    (of r c).answer = answer ∧ (of r c).after = after := by
  rw [of, SetRequest.serve, h]
  exact ⟨rfl, rfl⟩

theorem request_run (rs : List SetRequest) (c : QueryCache) :
    (run rs c).map (·.request) = rs := by
  induction rs generalizing c with
  | nil => rfl
  | cons r rs ih => rw [run, List.map_cons, ih, of]

theorem first?_append_error {e : ConfigError} (he : s.answer = .error e) :
    first? (past ++ [s]) = first? past := by
  funext key
  simp [first?, List.find?_append, he, Except.isOk, Except.toBool]

theorem first?_append_ok (hs : s.answer = .ok set) (key : String) :
    first? (past ++ [s]) key =
      (first? past key).or (if s.request.key = key then some s else none) := by
  by_cases hkey : s.request.key = key <;>
    simp [first?, List.find?_append, hs, hkey, Except.isOk, Except.toBool]

/-! ## What a cache binds -/

/-- After some steps a cache binds the keys that succeeded, each as its first success has it. -/
structure Binds (past : List SetStep) (c : QueryCache) : Prop where
  nodup : (c.sets.map (·.1)).Nodup
  bound : ∀ key, c.bound? key = (first? past key).bind binding?
  compiled : ∀ key s, first? past key = some s → s.answer = s.request.compiled
  /-- What a step left in the cache is still there. -/
  kept : ∀ s ∈ past, s.after.sets <:+ c.sets
  placed : ∀ key s b, first? past key = some s → s.binding? = some b → (key, b) ∈ s.after.sets

/-- What a step answers after others: what compiling gives as long as its key is free, and then
the set that the first success got, if the configuration is the same. -/
def Answers (past : List SetStep) (s : SetStep) : Prop :=
  match first? past s.request.key with
  | none => s.answer = s.request.compiled
  | some first =>
    if s.request.language = first.request.language ∧ s.request.sources = first.request.sources then
      Share first s
    else s.answer = .error (.cacheKeyConflict s.request.key)

theorem exists_answer_of_first? (h : first? past key = some s) :
    s ∈ past ∧ s.request.key = key ∧ ∃ set, s.answer = .ok set := by
  have hfound := List.find?_some h
  simp only [Bool.and_eq_true, beq_iff_eq] at hfound
  refine ⟨List.mem_of_find?_eq_some h, hfound.1, ?_⟩
  cases hs : s.answer with
  | ok set => exact ⟨set, rfl⟩
  | error e => simp [hs, Except.isOk, Except.toBool] at hfound

theorem answer_of_binding? {b : BoundSet} (h : s.binding? = some b) :
    s.answer = .ok b.set ∧ s.request.language = b.language ∧ s.request.sources = b.sources := by
  obtain ⟨set, hset, rfl⟩ := Option.map_eq_some_iff.mp h
  cases hs : s.answer with
  | ok set' =>
    rw [hs] at hset
    cases hset
    exact ⟨rfl, rfl, rfl⟩
  | error e =>
    rw [hs] at hset
    cases hset

namespace Binds

/-- A key is free exactly as long as it did not succeed. -/
theorem first?_eq_none (h : Binds past c) (hfree : c.bound? key = none) :
    first? past key = none := by
  cases hfirst : first? past key with
  | none => rfl
  | some s =>
    obtain ⟨-, -, set, hs⟩ := exists_answer_of_first? hfirst
    rw [h.bound, hfirst] at hfree
    simp [binding?, hs, Except.toOption] at hfree

theorem exists_first? (h : Binds past c) {b : BoundSet} (hbound : c.bound? key = some b) :
    ∃ s, first? past key = some s ∧ s.binding? = some b := by
  rw [h.bound] at hbound
  exact Option.bind_eq_some_iff.mp hbound

/-- A step that is no first success and changes nothing. -/
theorem append_same (h : Binds past c) (hfirst : first? (past ++ [s]) = first? past)
    (hafter : s.after = c) : Binds (past ++ [s]) c where
  nodup := h.nodup
  bound key := by rw [hfirst, h.bound]
  compiled key := by rw [hfirst]; exact h.compiled key
  kept s' hs' := by
    rcases List.mem_append.mp hs' with hpast | hlast
    · exact h.kept s' hpast
    · obtain rfl := List.mem_singleton.mp hlast
      have hsets : s'.after.sets = c.sets := congrArg QueryCache.sets hafter
      exact hsets ▸ List.suffix_rfl
  placed key := by rw [hfirst]; exact h.placed key

/-- A step that is the first success of its key. -/
theorem append_first (h : Binds past c) (hfree : c.bound? s.request.key = none)
    (hs : s.answer = .ok set) (hcompiled : s.request.compiled = .ok set)
    (hafter : s.after = { c with sets :=
      (s.request.key, ⟨s.request.language, s.request.sources, set⟩) :: c.sets }) :
    Binds (past ++ [s]) s.after where
  nodup := by
    rw [hafter, List.map_cons, List.nodup_cons]
    refine ⟨?_, h.nodup⟩
    rw [QueryCache.bound?, Option.map_eq_none_iff, List.find?_eq_none] at hfree
    intro hmem
    obtain ⟨entry, hentry, hkey⟩ := List.mem_map.mp hmem
    exact hfree entry hentry (by simp [hkey])
  bound key := by
    rw [first?_append_ok hs, hafter]
    by_cases hkey : s.request.key = key
    · subst hkey
      simp [QueryCache.bound?, h.first?_eq_none hfree, binding?, hs, Except.toOption]
    · have hother := h.bound key
      simp only [QueryCache.bound?] at hother
      simp [QueryCache.bound?, hkey, hother]
  compiled key s' hs' := by
    rw [first?_append_ok hs] at hs'
    rcases Option.or_eq_some_iff.mp hs' with hpast | ⟨-, hlast⟩
    · exact h.compiled key s' hpast
    · split at hlast
      · cases hlast
        rw [hs, hcompiled]
      · cases hlast
  kept s' hs' := by
    rcases List.mem_append.mp hs' with hpast | hlast
    · rw [hafter]
      exact (h.kept s' hpast).trans (List.suffix_cons _ _)
    · obtain rfl := List.mem_singleton.mp hlast
      exact List.suffix_rfl
  placed key s' b hs' hb := by
    rw [first?_append_ok hs] at hs'
    rcases Option.or_eq_some_iff.mp hs' with hpast | ⟨-, hlast⟩
    · exact h.placed key s' b hpast hb
    · split at hlast
      · rename_i hkey
        cases hlast
        rw [hafter, ← hkey]
        simp only [binding?, hs, Except.toOption, Option.map_some, Option.some.injEq] at hb
        rw [hb]
        exact List.mem_cons_self
      · cases hlast

/-- A step that finds its set shares it with the first success of its key. -/
theorem share_of_bound (h : Binds past c) {b : BoundSet} {first : SetStep}
    (hfirst : first? past s.request.key = some first) (hb : first.binding? = some b)
    (hs : s.answer = .ok b.set) (hafter : s.after = c) : Share first s := by
  obtain ⟨hpast, hkey, -⟩ := exists_answer_of_first? hfirst
  obtain ⟨place, hplace⟩ :=
    List.getElem?_of_mem (List.mem_reverse.mpr (h.placed _ first b hfirst hb))
  obtain ⟨newer, hnewer⟩ := List.reverse_prefix.mpr (h.kept first hpast)
  refine ⟨place, b, (answer_of_binding? hb).1, hkey.symm ▸ hplace, hs, ?_⟩
  rw [hafter, ← hnewer, List.getElem?_append_left (List.getElem?_eq_some_iff.mp hplace).1, hplace]

/-- Each step answers as its key is bound, and the cache goes on binding. -/
theorem step (h : Binds past c) (r : SetRequest) :
    Answers past (of r c) ∧ Binds (past ++ [of r c]) (of r c).after := by
  have hrequest : (of r c).request = r := rfl
  rcases c.querySet_cases r.files r.key r.language r.sources with
    ⟨b, hbound, hl, hsources, hserve⟩ | ⟨⟨b, hbound, hother⟩, hserve⟩ |
    ⟨set, hfree, hset, hserve⟩ | ⟨e, hfree, he, hserve⟩
  · obtain ⟨first, hfirst, hb⟩ := h.exists_first? hbound
    obtain ⟨-, hfl, hfsources⟩ := answer_of_binding? hb
    obtain ⟨hanswer, hafter⟩ := served_of hserve
    have hsame : r.language = first.request.language ∧ r.sources = first.request.sources :=
      ⟨hl.symm.trans hfl.symm, hsources.symm.trans hfsources.symm⟩
    have hunchanged : first? (past ++ [of r c]) = first? past := by
      funext key
      rw [first?_append_ok hanswer, hrequest]
      by_cases hmine : r.key = key
      · rw [← hmine, hfirst, Option.some_or]
      · rw [if_neg hmine, Option.or_none]
    rw [Answers, hrequest, hfirst, hafter]
    dsimp only
    rw [if_pos hsame]
    exact ⟨h.share_of_bound hfirst hb hanswer hafter, h.append_same hunchanged hafter⟩
  · obtain ⟨first, hfirst, hb⟩ := h.exists_first? hbound
    obtain ⟨-, hfl, hfsources⟩ := answer_of_binding? hb
    obtain ⟨hanswer, hafter⟩ := served_of hserve
    have hdiffers : ¬ (r.language = first.request.language ∧
        r.sources = first.request.sources) := by
      rintro ⟨hl, hsources⟩
      exact hother ⟨hfl.symm.trans hl.symm, hfsources.symm.trans hsources.symm⟩
    rw [Answers, hrequest, hfirst, hafter]
    dsimp only
    rw [if_neg hdiffers]
    exact ⟨hanswer, h.append_same (first?_append_error hanswer) hafter⟩
  · obtain ⟨hanswer, hafter⟩ := served_of hserve
    have hcompiled : r.compiled = .ok set := hset
    rw [Answers, hrequest, h.first?_eq_none hfree]
    exact ⟨hanswer.trans hcompiled.symm, h.append_first hfree hanswer hcompiled hafter⟩
  · obtain ⟨hanswer, hafter⟩ := served_of hserve
    have hcompiled : r.compiled = .error e := he
    rw [Answers, hrequest, h.first?_eq_none hfree, hafter]
    exact ⟨hanswer.trans hcompiled.symm, h.append_same (first?_append_error hanswer) hafter⟩

theorem run (h : Binds past c) {i : Nat} (hs : (run rs c)[i]? = some s) :
    Answers (past ++ (SetStep.run rs c).take i) s ∧
      Binds (past ++ (SetStep.run rs c).take (i + 1)) s.after := by
  induction rs generalizing past c i with
  | nil => cases hs
  | cons r rs ih =>
    obtain ⟨hanswers, hbinds⟩ := h.step r
    cases i with
    | zero =>
      obtain rfl : of r c = s := Option.some.inj hs
      rw [List.take_zero, List.append_nil]
      exact ⟨hanswers, hbinds⟩
    | succ i =>
      have hnext := ih hbinds (i := i) hs
      rwa [List.append_assoc, List.append_assoc] at hnext

end Binds

theorem after_eq_before_of_error (hs : s ∈ run rs c) {e : ConfigError}
    (he : s.answer = .error e) : s.after = s.before := by
  induction rs generalizing c with
  | nil => cases hs
  | cons r rs ih =>
    rcases List.mem_cons.mp hs with rfl | hs
    · rcases c.querySet_cases r.files r.key r.language r.sources with
        ⟨_, -, -, -, hserve⟩ | ⟨-, hserve⟩ | ⟨_, -, -, hserve⟩ | ⟨_, -, -, hserve⟩ <;>
        simp [of, SetRequest.serve, hserve] at he ⊢
    · exact ih hs

end SetStep

end SourceFacts
