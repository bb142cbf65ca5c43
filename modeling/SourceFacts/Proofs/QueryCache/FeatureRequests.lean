import SourceFacts.Proofs.FeatureQuery.Key
import SourceFacts.QueryCache

/-!
# Requests for the queries of features

What serving one request does to the cache is said once (`serve_cases`). Requests with equal keys
compile alike (`compiled_eq_of_key?_eq`), because a key identifies all that shapes a query.
-/

namespace SourceFacts

/-- A request for the query of a feature. -/
structure FeatureRequest where
  language : Language
  templates : TemplateSet
  feature : Feature

namespace FeatureRequest

/-- The template for the shape of the feature. -/
def template? (r : FeatureRequest) : Option Template :=
  (Template.select r.feature.concept r.feature.target).toOption

/-- The text that the template of a request is digested from. -/
def templateText? (r : FeatureRequest) : Option String := r.template?.map r.templates.text

/-- The text that the feature of a request is digested from. -/
def shapeText? (r : FeatureRequest) : Option String :=
  r.template?.map fun _ => (FeatureQuery.shape r.feature).compact

/-- The key under which the query is kept. -/
def key? (r : FeatureRequest) : Option String :=
  r.template?.map fun t => FeatureQuery.cacheKey r.language t (r.templates.text t) r.feature

/-- The query, made anew. -/
def compiled (r : FeatureRequest) : Except ConfigError FeatureQuery :=
  FeatureQuery.compile r.language r.templates r.feature

/-- The answer to a request, with the cache that it leaves. -/
def serve (r : FeatureRequest) (c : QueryCache) : Except ConfigError FeatureQuery × QueryCache :=
  c.featureQuery r.language r.templates r.feature

end FeatureRequest

/-! ## Compiling -/

namespace FeatureQuery

theorem ofTemplate_congr (l : Language) (t : Template) (text key : String) {f f' : Feature}
    (h : SameShape f f') : ofTemplate l t text key f = ofTemplate l t text key f' := by
  simp only [ofTemplate, Feature.constructsFor, h.constructs, h.library, h.key]

theorem key_of_ofTemplate {l : Language} {t : Template} {text key : String} {f : Feature}
    {q : FeatureQuery} (h : ofTemplate l t text key f = .ok q) : q.key = key := by
  simp only [ofTemplate, bind, Except.bind] at h
  split at h
  · cases h
  · split at h
    · cases h
    · cases h
      rfl

end FeatureQuery

namespace FeatureRequest

variable {r r' : FeatureRequest} {k : String} {q : FeatureQuery} {c : QueryCache}

theorem template?_eq_some_iff {t : Template} :
    r.template? = some t ↔ Template.select r.feature.concept r.feature.target = .ok t := by
  cases h : Template.select r.feature.concept r.feature.target <;>
    simp [template?, h, Except.toOption]

theorem compiled_of_template? {t : Template} (h : r.template? = some t) :
    r.compiled = FeatureQuery.ofTemplate r.language t (r.templates.text t)
      (FeatureQuery.cacheKey r.language t (r.templates.text t) r.feature) r.feature := by
  rw [compiled, FeatureQuery.compile, template?_eq_some_iff.mp h]
  rfl

theorem key?_of_compiled (h : r.compiled = .ok q) : r.key? = some q.key := by
  cases ht : r.template? with
  | none =>
    cases hselect : Template.select r.feature.concept r.feature.target with
    | ok t => simp [template?, hselect, Except.toOption] at ht
    | error e =>
      rw [compiled, FeatureQuery.compile, hselect] at h
      cases h
  | some t =>
    rw [compiled_of_template? ht] at h
    rw [key?, ht, FeatureQuery.key_of_ofTemplate h]
    rfl

theorem mem_templateTexts {rs : List FeatureRequest} {t : Template} (hr : r ∈ rs)
    (ht : r.template? = some t) : r.templates.text t ∈ rs.filterMap templateText? :=
  List.mem_filterMap.mpr ⟨r, hr, by rw [templateText?, ht]; rfl⟩

theorem mem_shapeTexts {rs : List FeatureRequest} {t : Template} (hr : r ∈ rs)
    (ht : r.template? = some t) :
    (FeatureQuery.shape r.feature).compact ∈ rs.filterMap shapeText? :=
  List.mem_filterMap.mpr ⟨r, hr, by rw [shapeText?, ht]; rfl⟩

/-- Equal keys compile alike, where the digests tell the requests apart. -/
theorem compiled_eq_of_key?_eq {rs : List FeatureRequest}
    (htext : Blake3.NoCollision (rs.filterMap templateText?))
    (hshape : Blake3.NoCollision (rs.filterMap shapeText?)) (hr : r ∈ rs) (hr' : r' ∈ rs)
    (hk : r.key? = some k) (hk' : r'.key? = some k) : r.compiled = r'.compiled := by
  obtain ⟨t, ht, rfl⟩ := Option.map_eq_some_iff.mp hk
  obtain ⟨t', ht', hkeys⟩ := Option.map_eq_some_iff.mp hk'
  obtain ⟨hl, rfl, hsame, hfeature⟩ := FeatureQuery.eq_of_cacheKey_eq
    (htext.pair (mem_templateTexts hr' ht') (mem_templateTexts hr ht))
    (hshape.pair (mem_shapeTexts hr' ht') (mem_shapeTexts hr ht)) hkeys
  rw [compiled_of_template? ht, compiled_of_template? ht', hl, hsame,
    FeatureQuery.cacheKey_congr _ _ _ hfeature, FeatureQuery.ofTemplate_congr _ _ _ _ hfeature]

/-! ## One request -/

/-- A request finds its query, or compiles and keeps it, or fails and changes nothing. -/
theorem serve_cases (r : FeatureRequest) (c : QueryCache) :
    (∃ k q, r.key? = some k ∧ c.feature? k = some q ∧ r.serve c = (.ok q, c)) ∨
    (∃ q, c.feature? q.key = none ∧ r.compiled = .ok q ∧
      r.serve c = (.ok q, { c with features := (q.key, q) :: c.features })) ∨
    (∃ e, r.compiled = .error e ∧ r.serve c = (.error e, c)) := by
  cases hselect : Template.select r.feature.concept r.feature.target with
  | error e =>
    refine Or.inr (Or.inr ⟨e, ?_, ?_⟩)
    · rw [compiled, FeatureQuery.compile, hselect]
      rfl
    · simp only [serve, QueryCache.featureQuery, hselect]
  | ok t =>
    have ht : r.template? = some t := template?_eq_some_iff.mpr hselect
    have hcompiled := compiled_of_template? ht
    set k := FeatureQuery.cacheKey r.language t (r.templates.text t) r.feature with hk
    cases hfound : c.feature? k with
    | some q =>
      refine Or.inl ⟨k, q, by rw [key?, ht]; rfl, hfound, ?_⟩
      simp only [serve, QueryCache.featureQuery, hselect, ← hk, hfound]
    | none =>
      cases hq : FeatureQuery.ofTemplate r.language t (r.templates.text t) k r.feature with
      | ok q =>
        have hkey : q.key = k := FeatureQuery.key_of_ofTemplate hq
        refine Or.inr (Or.inl ⟨q, by rw [hkey, hfound], by rw [hcompiled, hq], ?_⟩)
        simp only [serve, QueryCache.featureQuery, hselect, ← hk, hfound, hq, hkey]
      | error e =>
        refine Or.inr (Or.inr ⟨e, by rw [hcompiled, hq], ?_⟩)
        simp only [serve, QueryCache.featureQuery, hselect, ← hk, hfound, hq]

theorem serve_empty (r : FeatureRequest) : (r.serve .empty).1 = r.compiled := by
  rcases r.serve_cases .empty with ⟨k, q, -, hfound, -⟩ | ⟨q, -, hq, hserve⟩ | ⟨e, he, hserve⟩
  · simp [QueryCache.feature?, QueryCache.empty] at hfound
  · rw [hserve, hq]
  · rw [hserve, he]

end FeatureRequest

end SourceFacts
