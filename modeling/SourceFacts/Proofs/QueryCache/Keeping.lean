import SourceFacts.Proofs.QueryCache.FeatureRuns

/-!
# What a cache keeps

A cache keeps the queries of some requests if every query in it is what compiling gives for one
of them. Where the digests tell the requests apart, each of them is then answered as compiling
answers it, and the cache goes on keeping their queries (`Keeps.serve`). So whatever a cache has
served since it was empty, it keeps.
-/

namespace SourceFacts

/-- No two different texts that the requests are digested from share a digest. -/
structure FeatureRequest.NoCollision (rs : List FeatureRequest) : Prop where
  templates : Blake3.NoCollision (rs.filterMap templateText?)
  shapes : Blake3.NoCollision (rs.filterMap shapeText?)

theorem FeatureRequest.NoCollision.mono {rs more : List FeatureRequest}
    (h : FeatureRequest.NoCollision more) (hsub : rs ⊆ more) : FeatureRequest.NoCollision rs where
  templates := h.templates.mono (List.filterMap_subset _ hsub)
  shapes := h.shapes.mono (List.filterMap_subset _ hsub)

/-- Requests that are digested from one and the same texts do not collide. -/
theorem FeatureRequest.NoCollision.of_alike {rs : List FeatureRequest} (r : FeatureRequest)
    (halike : ∀ r' ∈ rs, r'.templateText? = r.templateText? ∧ r'.shapeText? = r.shapeText?) :
    FeatureRequest.NoCollision rs := by
  have hsame : ∀ text? : FeatureRequest → Option String, (∀ r' ∈ rs, text? r' = text? r) →
      Blake3.NoCollision (rs.filterMap text?) := by
    intro text? h a ha b hb _
    obtain ⟨r₁, hr₁, ha⟩ := List.mem_filterMap.mp ha
    obtain ⟨r₂, hr₂, hb⟩ := List.mem_filterMap.mp hb
    rw [h r₁ hr₁] at ha
    rw [h r₂ hr₂] at hb
    exact Option.some.inj (ha.symm.trans hb)
  exact ⟨hsame _ fun r' hr' => (halike r' hr').1, hsame _ fun r' hr' => (halike r' hr').2⟩

namespace QueryCache

variable {c : QueryCache} {rs more : List FeatureRequest} {r : FeatureRequest}

/-- Every query in the cache is what compiling gives for one of the requests with its key. -/
def Keeps (c : QueryCache) (rs : List FeatureRequest) : Prop :=
  ∀ k q, (k, q) ∈ c.features → ∃ r ∈ rs, r.key? = some k ∧ r.compiled = .ok q

theorem keeps_empty (rs : List FeatureRequest) : empty.Keeps rs :=
  fun _ _ h => absurd h List.not_mem_nil

namespace Keeps

theorem mono (h : c.Keeps rs) (hsub : rs ⊆ more) : c.Keeps more := by
  intro k q hq
  obtain ⟨r, hr, hfrom⟩ := h k q hq
  exact ⟨r, hsub hr, hfrom⟩

/-- Only the queries of features count. -/
theorem congr {c' : QueryCache} (h : c.Keeps rs) (hfeatures : c'.features = c.features) :
    c'.Keeps rs := by
  intro k q hq
  rw [hfeatures] at hq
  exact h k q hq

/-- What is found under the key of a request is what compiling gives for it. -/
theorem compiled_of_found (h : c.Keeps rs) (hrs : FeatureRequest.NoCollision rs) (hr : r ∈ rs)
    {k : String} {q : FeatureQuery} (hk : r.key? = some k) (hfound : c.feature? k = some q) :
    r.compiled = .ok q := by
  obtain ⟨r', hr', hk', hq⟩ := h k q (FeatureStep.mem_features_of_feature? hfound)
  rw [← hq]
  exact FeatureRequest.compiled_eq_of_key?_eq hrs.templates hrs.shapes hr hr' hk hk'

/-- Serving a request answers as compiling does, and the cache goes on keeping. -/
theorem serve (h : c.Keeps rs) (hrs : FeatureRequest.NoCollision rs) (hr : r ∈ rs) :
    (r.serve c).1 = r.compiled ∧ (r.serve c).2.Keeps rs := by
  rcases r.serve_cases c with ⟨k, q, hk, hfound, hserve⟩ | ⟨q, -, hq, hserve⟩ | ⟨e, he, hserve⟩
  · rw [hserve, h.compiled_of_found hrs hr hk hfound]
    exact ⟨rfl, h⟩
  · rw [hserve, hq]
    refine ⟨rfl, fun k' q' hmem => ?_⟩
    rcases List.mem_cons.mp hmem with heq | hmem
    · cases heq
      exact ⟨r, hr, FeatureRequest.key?_of_compiled hq, hq⟩
    · exact h k' q' hmem
  · rw [hserve, he]
    exact ⟨rfl, h⟩

end Keeps

end QueryCache

/-- Serving a request leaves the sets of queries alone. -/
theorem FeatureRequest.sets_serve (r : FeatureRequest) (c : QueryCache) :
    (r.serve c).2.sets = c.sets := by
  rcases r.serve_cases c with ⟨k, q, -, -, h⟩ | ⟨q, -, -, h⟩ | ⟨e, -, h⟩ <;> rw [h]

end SourceFacts
