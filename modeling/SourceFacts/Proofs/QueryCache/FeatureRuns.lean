import Mathlib.Data.Finset.Card
import SourceFacts.Proofs.QueryCache.FeatureRequests

/-!
# Runs of requests for the queries of features

However many requests went before, and whatever they asked for, a request is answered as it
would be with nothing kept (`run_transparent`). Equal keys get one compiled query, failures
leave the cache alone, and there are as many queries as keys that succeeded.

What is kept stays at its place (`features_suffix_of_mem_run`). That every query in the cache is
what compiling gives for an earlier request with its key (`Holds`) is kept by each step
(`Holds.step`), and so it holds all along a run (`Holds.run`).
-/

namespace SourceFacts

/-- A request that was served, with its answer and the cache before and after. -/
structure FeatureStep where
  request : FeatureRequest
  before : QueryCache
  answer : Except ConfigError FeatureQuery
  after : QueryCache

namespace FeatureStep

/-- The step in which a cache serves a request. -/
def of (r : FeatureRequest) (c : QueryCache) : FeatureStep :=
  ⟨r, c, (r.serve c).1, (r.serve c).2⟩

/-- The steps of a run: each begins with the cache that the one before leaves. -/
def run : List FeatureRequest → QueryCache → List FeatureStep
  | [], _ => []
  | r :: rs, c => of r c :: run rs (of r c).after

/-- The keys of the requests that got a query. -/
def succeeded (steps : List FeatureStep) : List String :=
  (steps.filter (·.answer.isOk)).filterMap (·.request.key?)

/-- Two steps share one compiled query: both gave out what stands at one place of the cache,
counted from the oldest query. -/
def Share (s s' : FeatureStep) : Prop :=
  ∃ (place : Nat) (key : String) (q : FeatureQuery),
    s.answer = .ok q ∧ s.after.features.reverse[place]? = some (key, q) ∧
    s'.answer = .ok q ∧ s'.after.features.reverse[place]? = some (key, q)

variable {past : List FeatureStep} {s s' : FeatureStep} {rs : List FeatureRequest}
variable {r : FeatureRequest} {c : QueryCache} {q : FeatureQuery}

theorem request_run (rs : List FeatureRequest) (c : QueryCache) :
    (run rs c).map (·.request) = rs := by
  induction rs generalizing c with
  | nil => rfl
  | cons r rs ih => rw [run, List.map_cons, ih, of]

theorem eq_of_mem_run (hs : s ∈ run rs c) : s = of s.request s.before := by
  induction rs generalizing c with
  | nil => cases hs
  | cons r rs ih =>
    rcases List.mem_cons.mp hs with rfl | hs
    · rfl
    · exact ih hs

theorem succeeded_append_ok {k : String} (hs : s.answer = .ok q) (hk : s.request.key? = some k) :
    succeeded (past ++ [s]) = succeeded past ++ [k] := by
  simp [succeeded, hs, hk, Except.isOk, Except.toBool]

theorem succeeded_append_error {e : ConfigError} (he : s.answer = .error e) :
    succeeded (past ++ [s]) = succeeded past := by
  simp [succeeded, he, Except.isOk, Except.toBool]

/-! ## What is kept stays -/

theorem features_suffix_after (r : FeatureRequest) (c : QueryCache) :
    c.features <:+ (of r c).after.features := by
  rcases r.serve_cases c with ⟨k, q, -, -, h⟩ | ⟨q, -, -, h⟩ | ⟨e, -, h⟩ <;> simp only [of, h]
  · exact List.suffix_rfl
  · exact List.suffix_cons _ _
  · exact List.suffix_rfl

theorem features_suffix_of_mem_run (hs : s ∈ run rs c) : c.features <:+ s.after.features := by
  induction rs generalizing c with
  | nil => cases hs
  | cons r rs ih =>
    rcases List.mem_cons.mp hs with rfl | hs
    · exact features_suffix_after r c
    · exact (features_suffix_after r c).trans (ih hs)

theorem features_suffix_or_suffix (hs : s ∈ run rs c) (hs' : s' ∈ run rs c) :
    s.after.features <:+ s'.after.features ∨ s'.after.features <:+ s.after.features := by
  induction rs generalizing c with
  | nil => cases hs
  | cons r rs ih =>
    rcases List.mem_cons.mp hs with rfl | hs <;> rcases List.mem_cons.mp hs' with rfl | hs'
    · exact Or.inl List.suffix_rfl
    · exact Or.inl (features_suffix_of_mem_run hs')
    · exact Or.inr (features_suffix_of_mem_run hs)
    · exact ih hs hs'

/-- A failed request leaves the cache as it was. -/
theorem after_eq_before_of_error (hs : s ∈ run rs c) {e : ConfigError}
    (he : s.answer = .error e) : s.after = s.before := by
  rw [eq_of_mem_run hs] at he ⊢
  rcases s.request.serve_cases s.before with ⟨k, q, -, -, h⟩ | ⟨q, -, -, h⟩ | ⟨e, -, h⟩
  · simp [of, h] at he
  · simp [of, h] at he
  · simp only [of, h]

/-! ## What a cache holds -/

/-- Requests with equal keys compile alike. -/
def Consistent (rs : List FeatureRequest) : Prop :=
  ∀ r ∈ rs, ∀ r' ∈ rs, ∀ k, r.key? = some k → r'.key? = some k → r.compiled = r'.compiled

theorem Consistent.mono {rs' : List FeatureRequest} (h : Consistent rs)
    (hsub : ∀ r ∈ rs', r ∈ rs) : Consistent rs' :=
  fun r hr r' hr' => h r (hsub r hr) r' (hsub r' hr')

/-- After some steps a cache holds one query for each key that succeeded, which is what compiling
gives for a request with that key. -/
structure Holds (past : List FeatureStep) (c : QueryCache) : Prop where
  nodup : (c.features.map (·.1)).Nodup
  keys : ∀ k, k ∈ c.features.map (·.1) ↔ k ∈ succeeded past
  compiled : ∀ k q, (k, q) ∈ c.features →
    ∃ s ∈ past, s.request.key? = some k ∧ s.request.compiled = .ok q

theorem holds_empty : Holds [] .empty where
  nodup := List.nodup_nil
  keys _ := Iff.rfl
  compiled _ _ h := absurd h List.not_mem_nil

theorem mem_features_of_feature? {k : String} (h : c.feature? k = some q) :
    (k, q) ∈ c.features := by
  obtain ⟨⟨k', q'⟩, hfind, rfl⟩ := Option.map_eq_some_iff.mp h
  have hkey : k' = k := by simpa using List.find?_some hfind
  exact hkey ▸ List.mem_of_find?_eq_some hfind

theorem notMem_keys_of_feature? {k : String} (h : c.feature? k = none) :
    k ∉ c.features.map (·.1) := by
  rw [QueryCache.feature?, Option.map_eq_none_iff, List.find?_eq_none] at h
  intro hmem
  obtain ⟨e, he, rfl⟩ := List.mem_map.mp hmem
  exact h e he (by simp)

namespace Holds

theorem append (h : Holds past c)
    (hkeys : ∀ k, k ∈ succeeded (past ++ [s]) ↔ k ∈ succeeded past) : Holds (past ++ [s]) c where
  nodup := h.nodup
  keys k := (h.keys k).trans (hkeys k).symm
  compiled k q hq := by
    obtain ⟨s', hs', hfrom⟩ := h.compiled k q hq
    exact ⟨s', List.mem_append_left _ hs', hfrom⟩

theorem append_found (h : Holds past c) (hs : s.answer = .ok q)
    (hk : s.request.key? = some q.key) (hq : (q.key, q) ∈ c.features) :
    Holds (past ++ [s]) c := by
  refine h.append fun k => ?_
  rw [succeeded_append_ok hs hk, List.mem_append, List.mem_singleton]
  refine ⟨fun hk => hk.elim id ?_, Or.inl⟩
  rintro rfl
  exact (h.keys _).mp (List.mem_map_of_mem hq)

theorem append_compiled (h : Holds past c) (hs : s.answer = .ok q)
    (hq : s.request.compiled = .ok q) (hnone : c.feature? q.key = none) :
    Holds (past ++ [s]) { c with features := (q.key, q) :: c.features } where
  nodup := by
    rw [List.map_cons, List.nodup_cons]
    exact ⟨notMem_keys_of_feature? hnone, h.nodup⟩
  keys k := by
    rw [succeeded_append_ok hs (FeatureRequest.key?_of_compiled hq), List.map_cons, List.mem_cons,
      h.keys k, List.mem_append, List.mem_singleton, or_comm]
  compiled k q' hmem := by
    rcases List.mem_cons.mp hmem with heq | hmem
    · cases heq
      exact ⟨s, by simp, FeatureRequest.key?_of_compiled hq, hq⟩
    · obtain ⟨s', hs', hfrom⟩ := h.compiled k q' hmem
      exact ⟨s', List.mem_append_left _ hs', hfrom⟩

/-- What is found is what compiling gives. -/
theorem compiled_of_found (h : Holds past c)
    (hrs : Consistent (past.map (·.request) ++ [r])) {k : String} (hk : r.key? = some k)
    (hfound : c.feature? k = some q) : r.compiled = .ok q := by
  obtain ⟨s, hs, hsk, hsq⟩ := h.compiled k q (mem_features_of_feature? hfound)
  rw [← hsq]
  exact hrs r (by simp) s.request (List.mem_append_left _ (List.mem_map_of_mem hs)) k hk hsk

/-- Each step answers as compiling does, and what is given out is then held under its key. -/
theorem step (h : Holds past c) (hrs : Consistent (past.map (·.request) ++ [r])) :
    (of r c).answer = r.compiled ∧ Holds (past ++ [of r c]) (of r c).after ∧
      ∀ q, (of r c).answer = .ok q → (q.key, q) ∈ (of r c).after.features := by
  rcases r.serve_cases c with ⟨k, q, hk, hfound, hserve⟩ | ⟨q, hnone, hq, hserve⟩ |
      ⟨e, he, hserve⟩
  · have hanswer : (of r c).answer = .ok q := by rw [of, hserve]
    have hafter : (of r c).after = c := by rw [of, hserve]
    have hcompiled := h.compiled_of_found hrs hk hfound
    obtain rfl : q.key = k :=
      Option.some.inj ((FeatureRequest.key?_of_compiled hcompiled).symm.trans hk)
    have hmem := mem_features_of_feature? hfound
    rw [hafter]
    refine ⟨hanswer.trans hcompiled.symm, h.append_found hanswer hk hmem, fun q' hq' => ?_⟩
    cases hanswer.symm.trans hq'
    exact hmem
  · have hanswer : (of r c).answer = .ok q := by rw [of, hserve]
    have hafter : (of r c).after = { c with features := (q.key, q) :: c.features } := by
      rw [of, hserve]
    rw [hafter]
    refine ⟨hanswer.trans hq.symm, h.append_compiled hanswer hq hnone, fun q' hq' => ?_⟩
    cases hanswer.symm.trans hq'
    exact List.mem_cons_self
  · have hanswer : (of r c).answer = .error e := by rw [of, hserve]
    have hafter : (of r c).after = c := by rw [of, hserve]
    rw [hafter]
    refine ⟨hanswer.trans he.symm, h.append fun k => by rw [succeeded_append_error hanswer],
      fun q hq => ?_⟩
    cases hanswer.symm.trans hq

theorem featureCount_eq (h : Holds past c) :
    c.featureCount = (succeeded past).toFinset.card := by
  have hkeys : (c.features.map (·.1)).toFinset = (succeeded past).toFinset := by
    ext k
    rw [List.mem_toFinset, List.mem_toFinset, h.keys k]
  rw [← hkeys, List.toFinset_card_of_nodup h.nodup, List.length_map, QueryCache.featureCount]

/-- What each step preserves holds at every step of a run. -/
theorem run (h : Holds past c) (hrs : Consistent (past.map (·.request) ++ rs)) {i : Nat}
    (hs : (run rs c)[i]? = some s) :
    s.answer = s.request.compiled ∧ Holds (past ++ (FeatureStep.run rs c).take (i + 1)) s.after ∧
      ∀ q, s.answer = .ok q → (q.key, q) ∈ s.after.features := by
  induction rs generalizing past c i with
  | nil => cases hs
  | cons r rs ih =>
    have hsplit : past.map (·.request) ++ r :: rs = past.map (·.request) ++ [r] ++ rs := by
      rw [List.append_assoc, List.singleton_append]
    rw [hsplit] at hrs
    have hfirst : Consistent (past.map (·.request) ++ [r]) :=
      hrs.mono fun a ha => List.mem_append_left rs ha
    cases i with
    | zero =>
      obtain rfl : of r c = s := Option.some.inj hs
      exact h.step hfirst
    | succ i =>
      have hrest : Consistent ((past ++ [of r c]).map (·.request) ++ rs) := by
        rwa [List.map_append]
      have hnext := ih (h.step hfirst).2.1 hrest (i := i) hs
      rwa [List.append_assoc] at hnext

end Holds

/-! ## Sharing -/

theorem share_symm (h : Share s s') : Share s' s := by
  obtain ⟨place, key, q, hs, hplace, hs', hplace'⟩ := h
  exact ⟨place, key, q, hs', hplace', hs, hplace⟩

/-- What is given out under one key is one query, at a place that it never leaves. -/
theorem share_of_key_eq {q' : FeatureQuery}
    (hgrows : s.after.features <:+ s'.after.features)
    (hnodup : (s'.after.features.map (·.1)).Nodup) (hs : s.answer = .ok q)
    (hq : (q.key, q) ∈ s.after.features) (hs' : s'.answer = .ok q')
    (hq' : (q'.key, q') ∈ s'.after.features) (hkey : q.key = q'.key) : Share s s' := by
  have hentry : (q.key, q) = (q'.key, q') :=
    List.inj_on_of_nodup_map hnodup (hgrows.mem hq) hq' hkey
  obtain rfl : q = q' := (Prod.mk.inj hentry).2
  obtain ⟨place, hplace⟩ := List.getElem?_of_mem (List.mem_reverse.mpr hq)
  obtain ⟨newer, hnewer⟩ := List.reverse_prefix.mpr hgrows
  refine ⟨place, q.key, q, hs, hplace, hs', ?_⟩
  rw [← hnewer, List.getElem?_append_left (List.getElem?_eq_some_iff.mp hplace).1, hplace]

theorem share_iff_key_eq {q' : FeatureQuery}
    (hgrows : s.after.features <:+ s'.after.features ∨ s'.after.features <:+ s.after.features)
    (hnodup : (s.after.features.map (·.1)).Nodup) (hnodup' : (s'.after.features.map (·.1)).Nodup)
    (hs : s.answer = .ok q) (hq : (q.key, q) ∈ s.after.features) (hs' : s'.answer = .ok q')
    (hq' : (q'.key, q') ∈ s'.after.features) : Share s s' ↔ q.key = q'.key := by
  constructor
  · rintro ⟨_, _, _, hgives, -, hgives', -⟩
    cases hs.symm.trans hgives
    cases hs'.symm.trans hgives'
    rfl
  · intro hkey
    rcases hgrows with hgrows | hgrows
    · exact share_of_key_eq hgrows hnodup' hs hq hs' hq' hkey
    · exact share_symm (share_of_key_eq hgrows hnodup hs' hq' hs hq hkey.symm)

/-- **The cache is transparent over whole runs.** Whatever is asked for, in whatever order, each
request is answered as it would be with nothing kept, a failure leaves the cache as it was, there
are as many queries as keys that succeeded, and two successes share one compiled query if and
only if their keys are equal. -/
theorem run_transparent (rs : List FeatureRequest)
    (htext : Blake3.NoCollision (rs.filterMap FeatureRequest.templateText?))
    (hshape : Blake3.NoCollision (rs.filterMap FeatureRequest.shapeText?)) :
    (run rs .empty).map (·.request) = rs ∧
    (∀ s ∈ run rs .empty, s.answer = (s.request.serve .empty).1) ∧
    (∀ s ∈ run rs .empty, ∀ e, s.answer = .error e → s.after = s.before) ∧
    (∀ i s, (run rs .empty)[i]? = some s →
      s.after.featureCount = (succeeded ((run rs .empty).take (i + 1))).toFinset.card) ∧
    (∀ s ∈ run rs .empty, ∀ q, s.answer = .ok q → ∀ s' ∈ run rs .empty, ∀ q', s'.answer = .ok q' →
      (Share s s' ↔ s.request.key? = s'.request.key?)) := by
  have hrs : Consistent rs := fun r hr r' hr' k hk hk' =>
    FeatureRequest.compiled_eq_of_key?_eq htext hshape hr hr' hk hk'
  have hrun := fun i s (hs : (run rs .empty)[i]? = some s) => holds_empty.run hrs hs
  have hmem : ∀ s ∈ run rs .empty, s.answer = s.request.compiled ∧
      (s.after.features.map (·.1)).Nodup ∧
      ∀ q, s.answer = .ok q → (q.key, q) ∈ s.after.features := by
    intro s hs
    obtain ⟨i, hi⟩ := List.getElem?_of_mem hs
    obtain ⟨hanswer, hholds, hkept⟩ := hrun i s hi
    exact ⟨hanswer, hholds.nodup, hkept⟩
  refine ⟨request_run rs .empty, fun s hs => ?_,
    fun s hs e he => after_eq_before_of_error hs he, fun i s hs => ?_,
    fun s hs q hq s' hs' q' hq' => ?_⟩
  · rw [(hmem s hs).1, FeatureRequest.serve_empty]
  · exact (hrun i s hs).2.1.featureCount_eq
  · obtain ⟨hanswer, hnodup, hkept⟩ := hmem s hs
    obtain ⟨hanswer', hnodup', hkept'⟩ := hmem s' hs'
    rw [FeatureRequest.key?_of_compiled (hanswer.symm.trans hq),
      FeatureRequest.key?_of_compiled (hanswer'.symm.trans hq'), Option.some.injEq]
    exact share_iff_key_eq (features_suffix_or_suffix hs hs') hnodup hnodup' hq (hkept q hq) hq'
      (hkept' q' hq')

theorem run_transparent_otherTemplates :
    let f : Feature :=
      { key := "route", library := "fastapi", paths := ["fastapi.FastAPI"], target := .function
        concept := .decorator, strategy := .variableBound, constructs := some .empty
        description := "", startpoint := true }
    let templates : TemplateSet :=
      { family := "python", decoratorClass := "", decoratorFunction := "(decorator) @annotation"
        callExpression := "", inheritance := "" }
    let rs : List FeatureRequest := [
      ⟨.python, templates, f⟩, ⟨.python, templates, { f with description := "A route." }⟩,
      ⟨.typescript, templates, f⟩, ⟨.python, templates, { f with concept := .inheritance }⟩,
      ⟨.python, { templates with decoratorFunction := "(call" }, f⟩]
    Blake3.NoCollision (rs.filterMap FeatureRequest.templateText?) ∧
      Blake3.NoCollision (rs.filterMap FeatureRequest.shapeText?) ∧
      ∀ s ∈ run rs .empty, s.answer = (s.request.serve .empty).1 := by
  intro f templates rs
  have htexts : rs.filterMap FeatureRequest.templateText? =
      ["(decorator) @annotation", "(decorator) @annotation", "(decorator) @annotation", "(call"] :=
    rfl
  have hshapes : rs.filterMap FeatureRequest.shapeText? =
      List.replicate 4 (FeatureQuery.shape f).compact := rfl
  have hdistinct : Blake3.NoCollision ["(decorator) @annotation", "(call"] :=
    Blake3.noCollision_of_nodup (by decide +kernel)
  have htext : Blake3.NoCollision (rs.filterMap FeatureRequest.templateText?) :=
    hdistinct.mono (by rw [htexts]; simp)
  have hshape : Blake3.NoCollision (rs.filterMap FeatureRequest.shapeText?) := by
    rw [hshapes]
    intro a ha b hb _
    rw [List.eq_of_mem_replicate ha, List.eq_of_mem_replicate hb]
  exact ⟨htext, hshape, (run_transparent rs htext hshape).2.1⟩

end FeatureStep

end SourceFacts
