import SourceFacts.Proofs.Engine.OwnCache

/-!
# Analyses side by side

Two analyses, each with a cache of its own, can be followed side by side as long as the caches
agree on what matters: the sets under certain keys, and the queries of features for the languages
of one family (`QueryCache.Agree`). A request for one of these is answered alike on both sides
(`QueryCache.Agree.serve`), and a request for anything else, on whichever side, is not noticed
(`QueryCache.agree_serve`). The rules for whole analyses follow (`Analysis.Related`).
-/

namespace SourceFacts

variable {α β γ δ : Type} {fs fs' : FileSystem} {c c' : QueryCache}
variable {keys : String → Prop} {family : Family} {r : CacheRequest}

/-! ## Caches that agree -/

namespace QueryCache

/-- Two caches have the same sets under some keys, and the same queries of features for the
languages of a family. -/
structure Agree (keys : String → Prop) (family : Family) (c c' : QueryCache) : Prop where
  sets : ∀ key, keys key → c.bound? key = c'.bound? key
  features : ∀ l t text f, l.family = family →
    c.feature? (FeatureQuery.cacheKey l t text f) = c'.feature? (FeatureQuery.cacheKey l t text f)

theorem Agree.refl (keys : String → Prop) (family : Family) (c : QueryCache) :
    Agree keys family c c := ⟨fun _ _ => rfl, fun _ _ _ _ _ => rfl⟩

theorem Agree.symm (h : Agree keys family c c') : Agree keys family c' c :=
  ⟨fun key hkey => (h.sets key hkey).symm, fun l t text f hl => (h.features l t text f hl).symm⟩

theorem Agree.trans {c₁ c₂ c₃ : QueryCache} (h : Agree keys family c₁ c₂)
    (h' : Agree keys family c₂ c₃) : Agree keys family c₁ c₃ :=
  ⟨fun key hkey => (h.sets key hkey).trans (h'.sets key hkey),
    fun l t text f hl => (h.features l t text f hl).trans (h'.features l t text f hl)⟩

theorem bound?_cons (c : QueryCache) (key key' : String) (b : BoundSet) :
    bound? { c with sets := (key, b) :: c.sets } key' =
      if key = key' then some b else c.bound? key' := by
  by_cases hkey : key = key'
  · simp [bound?, hkey]
  · simp [bound?, hkey, List.find?_cons_of_neg]

theorem feature?_cons (c : QueryCache) (key key' : String) (q : FeatureQuery) :
    feature? { c with features := (key, q) :: c.features } key' =
      if key = key' then some q else c.feature? key' := by
  by_cases hkey : key = key'
  · simp [feature?, hkey]
  · simp [feature?, hkey, List.find?_cons_of_neg]

end QueryCache

namespace CacheRequest

/-- A request for none of some keys and for another family. -/
def Apart (keys : String → Prop) (family : Family) : CacheRequest → Prop
  | .set key _ _ => ¬ keys key
  | .feature r => r.language.family ≠ family

/-- A request for one of some keys or for a family, which compiles alike in two states of the
files. -/
def Shared (keys : String → Prop) (family : Family) (fs fs' : FileSystem) : CacheRequest → Prop
  | .set key l sources => keys key ∧ QuerySet.compile fs l sources = QuerySet.compile fs' l sources
  | .feature r => r.language.family = family

end CacheRequest

namespace QueryCache

/-- A request for something else is not noticed. -/
theorem agree_serve (h : r.Apart keys family) (fs : FileSystem) (c : QueryCache) :
    Agree keys family c (r.serve fs c).2 := by
  cases r with
  | set key l sources =>
    simp only [CacheRequest.serve]
    rcases c.querySet_cases fs key l sources with ⟨_, -, -, -, hresult⟩ | ⟨-, hresult⟩ |
        ⟨set, -, -, hresult⟩ | ⟨_, -, -, hresult⟩
    · rw [hresult]
      exact .refl keys family c
    · rw [hresult]
      exact .refl keys family c
    · rw [hresult]
      refine ⟨fun key' hkey' => ?_, fun _ _ _ _ _ => rfl⟩
      have hne : key ≠ key' := by
        rintro rfl
        exact h hkey'
      rw [bound?_cons, if_neg hne]
    · rw [hresult]
      exact .refl keys family c
  | feature r =>
    simp only [CacheRequest.serve]
    rcases r.serve_cases c with ⟨_, _, -, -, hserve⟩ | ⟨q, -, hq, hserve⟩ | ⟨_, -, hserve⟩
    · rw [hserve]
      exact .refl keys family c
    · rw [hserve]
      refine ⟨fun _ _ => rfl, fun l t text f hl => ?_⟩
      have hne : q.key ≠ FeatureQuery.cacheKey l t text f := by
        intro hkey
        obtain ⟨t', -, hkey'⟩ := Option.map_eq_some_iff.mp (FeatureRequest.key?_of_compiled hq)
        obtain ⟨rfl, -⟩ := FeatureQuery.cacheKey_inj (hkey'.trans hkey)
        exact h hl
      rw [feature?_cons, if_neg hne]
    · rw [hserve]
      exact .refl keys family c

/-- A request for a set under one of the keys is answered alike. -/
theorem Agree.querySet (h : Agree keys family c c') {key : String} (hkey : keys key)
    {l : Language} {sources : List QuerySource}
    (hfiles : QuerySet.compile fs l sources = QuerySet.compile fs' l sources) :
    (c.querySet fs key l sources).1 = (c'.querySet fs' key l sources).1 ∧
      Agree keys family (c.querySet fs key l sources).2 (c'.querySet fs' key l sources).2 := by
  simp only [QueryCache.querySet, ← h.sets key hkey, ← hfiles]
  cases c.bound? key with
  | some b =>
    by_cases hsame : b.language = l ∧ b.sources = sources
    · simp only [if_pos hsame, true_and]
      exact h
    · simp only [if_neg hsame, true_and]
      exact h
  | none =>
    cases QuerySet.compile fs l sources with
    | error fault => exact ⟨rfl, h⟩
    | ok set =>
      refine ⟨rfl, fun key' hkey' => ?_, h.features⟩
      rw [bound?_cons, bound?_cons, h.sets key' hkey']

/-- A request for the query of a feature in a language of the family is answered alike. -/
theorem Agree.featureQuery (h : Agree keys family c c') {r : FeatureRequest}
    (hr : r.language.family = family) :
    (r.serve c).1 = (r.serve c').1 ∧ Agree keys family (r.serve c).2 (r.serve c').2 := by
  simp only [FeatureRequest.serve, QueryCache.featureQuery]
  cases Template.select r.feature.concept r.feature.target with
  | error fault => exact ⟨rfl, h⟩
  | ok t =>
    simp only [← h.features r.language t (r.templates.text t) r.feature hr]
    cases c.feature? (FeatureQuery.cacheKey r.language t (r.templates.text t) r.feature) with
    | some q => exact ⟨rfl, h⟩
    | none =>
      cases FeatureQuery.ofTemplate r.language t (r.templates.text t)
        (FeatureQuery.cacheKey r.language t (r.templates.text t) r.feature) r.feature with
      | error fault => exact ⟨rfl, h⟩
      | ok q =>
        refine ⟨rfl, h.sets, fun l t text f hl => ?_⟩
        rw [feature?_cons, feature?_cons, h.features l t text f hl]

theorem Agree.serve (h : Agree keys family c c') (hr : r.Shared keys family fs fs') :
    (r.serve fs c).1 = (r.serve fs' c').1 ∧
      Agree keys family (r.serve fs c).2 (r.serve fs' c').2 := by
  cases r with
  | set key l sources => exact h.querySet hr.1 hr.2
  | feature r => exact h.featureQuery hr

end QueryCache

/-! ## Analyses side by side -/

namespace Analysis

open QueryCache (Agree)

/-- Through caches that agree two analyses come to related results, and leave caches that agree. -/
def Related (keys : String → Prop) (family : Family) (fs fs' : FileSystem) (post : α → β → Prop)
    (a : Analysis α) (b : Analysis β) : Prop :=
  ∀ c c', Agree keys family c c' →
    post (a.run fs c).1 (b.run fs' c').1 ∧ Agree keys family (a.run fs c).2 (b.run fs' c').2

theorem related_done {post : α → β → Prop} {x : α} {y : β} (h : post x y) :
    Related keys family fs fs' post (.done x) (.done y) := fun _ _ hc => ⟨h, hc⟩

theorem Related.bind {first : α → β → Prop} {post : γ → δ → Prop} {a : Analysis α}
    {b : Analysis β} {f : α → Analysis γ} {g : β → Analysis δ}
    (hab : Related keys family fs fs' first a b)
    (hfg : ∀ x y, first x y → Related keys family fs fs' post (f x) (g y)) :
    Related keys family fs fs' post (a.bind f) (b.bind g) := by
  intro c c' hc
  obtain ⟨hfirst, hafter⟩ := hab c c' hc
  rw [run_bind, run_bind]
  exact hfg _ _ hfirst _ _ hafter

theorem Related.mono {first post : α → β → Prop} {a : Analysis α} {b : Analysis β}
    (h : Related keys family fs fs' first a b) (hpost : ∀ x y, first x y → post x y) :
    Related keys family fs fs' post a b := fun c c' hc =>
  ⟨hpost _ _ (h c c' hc).1, (h c c' hc).2⟩

/-- An analysis that makes shared requests only comes out the same on both sides. -/
theorem related_of_shared {a : Analysis α} (ha : a.AsksOnly (·.Shared keys family fs fs')) :
    Related keys family fs fs' (· = ·) a a := by
  induction a with
  | done x => exact related_done rfl
  | ask r next ih =>
    intro c c' hc
    obtain ⟨hanswer, hafter⟩ := hc.serve ha.1
    simp only [run]
    rw [← hanswer]
    exact ih _ (ha.2 _) _ _ hafter

/-- Analyses that ask for something else do not disturb each other. -/
theorem related_of_apart {a : Analysis α} {b : Analysis β} (ha : a.AsksOnly (·.Apart keys family))
    (hb : b.AsksOnly (·.Apart keys family)) :
    Related keys family fs fs' (fun _ _ => True) a b := by
  intro c c' hc
  have hserveLeft : ∀ (r : CacheRequest) c₁, r.Apart keys family → Agree keys family c₁ c' →
      Agree keys family (r.serve fs c₁).2 c' :=
    fun r c₁ hr h => (QueryCache.agree_serve hr fs c₁).symm.trans h
  have hleft : Agree keys family (a.run fs c).2 c' := run_keeps hserveLeft ha hc
  have hserveRight : ∀ (r : CacheRequest) c₁, r.Apart keys family →
      Agree keys family (a.run fs c).2 c₁ → Agree keys family (a.run fs c).2 (r.serve fs' c₁).2 :=
    fun r c₁ hr h => h.trans (QueryCache.agree_serve hr fs' c₁)
  exact ⟨trivial, run_keeps hserveRight hb hleft⟩

end Analysis

end SourceFacts
