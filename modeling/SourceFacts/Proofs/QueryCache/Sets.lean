import SourceFacts.QueryCache

/-!
# Sets of queries out of a cache

A request for a set finds it, or finds its key taken by another set, or compiles and keeps it, or
fails (`querySet_cases`). In a sound cache, where every set is what its sources compile to, a
request is answered as compiling answers it, unless its key is taken (`Sound.querySet`).
-/

namespace SourceFacts

/-- A set of a single source that is there and can be read. -/
theorem QuerySet.compile_singleton {fs : FileSystem} {l : Language} {s : QuerySource}
    {text : String} {q : Query} (htext : s.text? fs = .ok (some text))
    (hread : FeatureQuery.readQuery l s.name text = .ok q) :
    QuerySet.compile fs l [s] = .ok ⟨[(s.name, q)]⟩ := by
  have hfound : s.compile? fs l = .ok (some (s.name, q)) := by
    rw [QuerySource.compile?, htext]
    simp only [bind, Except.bind, hread]
    rfl
  rw [QuerySet.compile, hfound]
  rfl

/-- Files matter to a set through the text of its source only. -/
theorem QuerySet.compile_congr {fs fs' : FileSystem} {s : QuerySource}
    (h : s.text? fs = s.text? fs') (l : Language) :
    QuerySet.compile fs l [s] = QuerySet.compile fs' l [s] := by
  simp only [QuerySet.compile, QuerySource.compile?, h]

namespace QueryCache

variable {fs : FileSystem} {c : QueryCache} {key key' : String} {l : Language}
variable {sources : List QuerySource} {b b' : BoundSet}

/-- A key is taken by a set of other sources, or for another language. -/
def TakenFrom (c : QueryCache) (key : String) (l : Language) (sources : List QuerySource) :
    Prop :=
  ∃ b, c.bound? key = some b ∧ ¬ (b.language = l ∧ b.sources = sources)

/-- Every set in the cache is what its sources compile to. -/
def Sound (fs : FileSystem) (c : QueryCache) : Prop :=
  ∀ key b, c.bound? key = some b → QuerySet.compile fs b.language b.sources = .ok b.set

theorem sound_empty (fs : FileSystem) : Sound fs empty := by
  intro key b h
  simp [bound?, empty] at h

theorem bound?_congr {c' : QueryCache} (h : c'.sets = c.sets) : c'.bound? = c.bound? := by
  funext key
  rw [bound?, bound?, h]

theorem bound?_of_bound?_cons
    (h : bound? { c with sets := (key, b) :: c.sets } key' = some b') :
    c.bound? key' = some b' ∨ key' = key ∧ b' = b := by
  rw [bound?, List.find?_cons] at h
  split at h
  · rename_i heq
    obtain rfl : key = key' := by simpa using heq
    exact Or.inr ⟨rfl, (Option.some.inj h).symm⟩
  · exact Or.inl h

/-- A request finds its set, or finds its key taken, or compiles and keeps its set, or fails. All
but the third change nothing. -/
theorem querySet_cases (fs : FileSystem) (key : String) (l : Language)
    (sources : List QuerySource) (c : QueryCache) :
    (∃ b, c.bound? key = some b ∧ b.language = l ∧ b.sources = sources ∧
      c.querySet fs key l sources = (.ok b.set, c)) ∨
    (c.TakenFrom key l sources ∧
      c.querySet fs key l sources = (.error (.cacheKeyConflict key), c)) ∨
    (∃ set, c.bound? key = none ∧ QuerySet.compile fs l sources = .ok set ∧
      c.querySet fs key l sources =
        (.ok set, { c with sets := (key, ⟨l, sources, set⟩) :: c.sets })) ∨
    (∃ e, c.bound? key = none ∧ QuerySet.compile fs l sources = .error e ∧
      c.querySet fs key l sources = (.error e, c)) := by
  cases hbound : c.bound? key with
  | some b =>
    by_cases hsame : b.language = l ∧ b.sources = sources
    · refine Or.inl ⟨b, rfl, hsame.1, hsame.2, ?_⟩
      simp only [querySet, hbound, if_pos hsame]
    · refine Or.inr (Or.inl ⟨⟨b, hbound, hsame⟩, ?_⟩)
      simp only [querySet, hbound, if_neg hsame]
  | none =>
    cases hset : QuerySet.compile fs l sources with
    | ok set =>
      refine Or.inr (Or.inr (Or.inl ⟨set, rfl, rfl, ?_⟩))
      simp only [querySet, hbound, hset]
    | error e =>
      refine Or.inr (Or.inr (Or.inr ⟨e, rfl, rfl, ?_⟩))
      simp only [querySet, hbound, hset]

/-- What is bound stays bound. -/
theorem bound?_querySet (hb : c.bound? key' = some b) (key : String) (l : Language)
    (sources : List QuerySource) : (c.querySet fs key l sources).2.bound? key' = some b := by
  rcases c.querySet_cases fs key l sources with ⟨_, -, -, -, hresult⟩ | ⟨-, hresult⟩ |
      ⟨set, hnone, -, hresult⟩ | ⟨_, -, -, hresult⟩
  · rw [hresult]
    exact hb
  · rw [hresult]
    exact hb
  · have hne : key ≠ key' := by
      rintro rfl
      rw [hnone] at hb
      cases hb
    rw [hresult, bound?, List.find?_cons_of_neg (by simpa using hne)]
    exact hb
  · rw [hresult]
    exact hb

/-- What is bound after a request was bound before, or is what was asked for. -/
theorem bound?_of_querySet
    (hb : (c.querySet fs key l sources).2.bound? key' = some b) :
    c.bound? key' = some b ∨ key' = key ∧ b.language = l ∧ b.sources = sources := by
  rcases c.querySet_cases fs key l sources with ⟨_, -, -, -, hresult⟩ | ⟨-, hresult⟩ |
      ⟨set, -, -, hresult⟩ | ⟨_, -, -, hresult⟩
  · exact Or.inl (by rwa [hresult] at hb)
  · exact Or.inl (by rwa [hresult] at hb)
  · rw [hresult] at hb
    rcases bound?_of_bound?_cons hb with hbefore | ⟨hkey, rfl⟩
    · exact Or.inl hbefore
    · exact Or.inr ⟨hkey, rfl, rfl⟩
  · exact Or.inl (by rwa [hresult] at hb)

/-- A sound cache answers as compiling does, unless the key is taken, and it stays sound. What is
bound afterwards was bound before, or is what was asked for; queries of features are left alone. -/
theorem Sound.querySet (h : Sound fs c) (key : String) (l : Language)
    (sources : List QuerySource) :
    let result := c.querySet fs key l sources
    (result.1 = QuerySet.compile fs l sources ∨
      c.TakenFrom key l sources ∧ result.1 = .error (.cacheKeyConflict key)) ∧
    Sound fs result.2 ∧
    (∀ key' b, result.2.bound? key' = some b →
      c.bound? key' = some b ∨ key' = key ∧ b.language = l ∧ b.sources = sources) ∧
    result.2.features = c.features := by
  have hbound : ∀ key' b, (c.querySet fs key l sources).2.bound? key' = some b →
      c.bound? key' = some b ∨ key' = key ∧ b.language = l ∧ b.sources = sources :=
    fun _ _ => bound?_of_querySet
  rcases c.querySet_cases fs key l sources with ⟨b, hb, rfl, rfl, hresult⟩ |
      ⟨htaken, hresult⟩ | ⟨set, -, hset, hresult⟩ | ⟨e, -, he, hresult⟩
  · rw [hresult] at hbound ⊢
    exact ⟨Or.inl (h key b hb).symm, h, hbound, rfl⟩
  · rw [hresult] at hbound ⊢
    exact ⟨Or.inr ⟨htaken, rfl⟩, h, hbound, rfl⟩
  · rw [hresult] at hbound ⊢
    refine ⟨Or.inl hset.symm, ?_, hbound, rfl⟩
    intro key' b hb
    rcases bound?_of_bound?_cons hb with hbefore | ⟨-, rfl⟩
    · exact h key' b hbefore
    · exact hset
  · rw [hresult] at hbound ⊢
    exact ⟨Or.inl he.symm, h, hbound, rfl⟩

end QueryCache

end SourceFacts
