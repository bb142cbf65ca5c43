import SourceFacts.Syntax.Vocabulary

/-!
# Words that a grammar knows for certain

The vocabulary of a grammar is collected from all of its rules. What a rule mentions itself is in
it, whatever the other rules are like: the kinds and roles (`Vocabulary.hasKind_ofRules`,
`Vocabulary.hasRole_ofRules`), and the children of a node that do not come out of another rule
(`Vocabulary.parts?_ofRules`).
-/

namespace SourceFacts.Syntax

deriving instance ReflBEq, LawfulBEq for Part

variable {τ : Type} {ofTerm : τ → List (String × Bool)} {rules : List (String × Rule τ)}
variable {extras : List String} {families : List (String × List String)}

/-- The nodes that a rule leaves to its surroundings by itself, without the rules it refers to. -/
def Rule.ownParts (ofTerm : τ → List (String × Bool)) : Rule τ → List Part
  | .empty | .ahead _ | .unless _ | .ref _ => []
  | .term t => (ofTerm t).map fun (kind, named) => ⟨none, kind, named⟩
  | .seq a b | .alt a b | .grow a b => a.ownParts ofTerm ++ b.ownParts ofTerm
  | .star r => r.ownParts ofTerm
  | .role name r => (r.ownParts ofTerm).map fun p => { p with role := some name }
  | .node kind _ | .wrap kind _ _ => [⟨none, kind, true⟩]
  | .phrase text _ => [⟨none, text, false⟩]

theorem Parts.mem_both {a b : Parts} {p : Part} : p ∈ a.both b ↔ p ∈ a ∨ p ∈ b := by
  rw [Parts.both, Std.HashSet.mem_insertMany_list, List.contains_iff_mem, Std.HashSet.mem_toList]

theorem Rule.mem_exposed {p : Part} (known : Exposure) (r : Rule τ)
    (hp : p ∈ r.ownParts ofTerm) : p ∈ r.exposed ofTerm known := by
  induction r generalizing p with
  | empty | ahead | «unless» | ref => cases hp
  | term t =>
    rw [Rule.exposed, Std.HashSet.mem_ofList, List.contains_iff_mem]
    exact hp
  | seq a b iha ihb | alt a b iha ihb | grow a b iha ihb =>
    rw [Rule.exposed, Parts.mem_both]
    exact (List.mem_append.mp hp).imp iha ihb
  | star r ih => exact ih hp
  | role name r ih =>
    obtain ⟨p', hp', rfl⟩ := List.mem_map.mp hp
    have hmem : p' ∈ (r.exposed ofTerm known).toList := Std.HashSet.mem_toList.mpr (ih hp')
    rw [Rule.exposed, Parts.withRole, Std.HashSet.mem_ofList, List.contains_iff_mem]
    exact List.mem_map_of_mem hmem
  | node kind r | wrap kind left r | phrase text r =>
    rw [Rule.exposed, Parts.single, Std.HashSet.mem_ofList, List.contains_iff_mem]
    exact hp

/-! ## Collecting children -/

/-- Whether a child is noted under a kind. -/
def Noted (m : Std.HashMap String Parts) (kind : String) (p : Part) : Prop :=
  ∃ ps, m[kind]? = some ps ∧ p ∈ ps

/-- Notes some more children of a kind. -/
def note (m : Std.HashMap String Parts) (found : String × Parts) : Std.HashMap String Parts :=
  m.insert found.1 ((m.getD found.1 ∅).both found.2)

theorem contentsOf_eq (ofTerm : τ → List (String × Bool)) (rules : List (String × Rule τ)) :
    ∃ known, contentsOf ofTerm rules =
      (rules.flatMap fun (_, r) => r.contents ofTerm known ∅).foldl note ∅ :=
  ⟨_, rfl⟩

theorem noted_note (m : Std.HashMap String Parts) {found : String × Parts} {p : Part}
    (hp : p ∈ found.2) : Noted (note m found) found.1 p := by
  refine ⟨(m.getD found.1 ∅).both found.2, ?_, Parts.mem_both.mpr (Or.inr hp)⟩
  rw [note, Std.HashMap.getElem?_insert_self]

theorem Noted.note {m : Std.HashMap String Parts} {kind : String} {p : Part}
    (h : Noted m kind p) (found : String × Parts) : Noted (note m found) kind p := by
  obtain ⟨ps, hps, hp⟩ := h
  by_cases hkind : found.1 = kind
  · subst hkind
    refine ⟨(m.getD found.1 ∅).both found.2, ?_, Parts.mem_both.mpr (Or.inl ?_)⟩
    · rw [Syntax.note, Std.HashMap.getElem?_insert_self]
    · rw [Std.HashMap.getD_eq_getD_getElem?, hps]
      exact hp
  · refine ⟨ps, ?_, hp⟩
    rw [Syntax.note, Std.HashMap.getElem?_insert, if_neg (by simpa using hkind)]
    exact hps

theorem Noted.foldl {m : Std.HashMap String Parts} {kind : String} {p : Part}
    (h : Noted m kind p) (found : List (String × Parts)) :
    Noted (found.foldl Syntax.note m) kind p := by
  induction found generalizing m with
  | nil => exact h
  | cons first rest ih => exact ih (h.note first)

theorem noted_foldl {found : List (String × Parts)} {kind : String} {ps : Parts} {p : Part}
    (hmem : (kind, ps) ∈ found) (hp : p ∈ ps) (m : Std.HashMap String Parts) :
    Noted (found.foldl note m) kind p := by
  induction found generalizing m with
  | nil => cases hmem
  | cons first rest ih =>
    rcases List.mem_cons.mp hmem with rfl | hrest
    · exact (noted_note m hp).foldl rest
    · exact ih hrest _

/-! ## The vocabulary -/

namespace Vocabulary

theorem hasKind_ofRules {kind : String} {named : Bool}
    (h : (kind, named) ∈ rules.flatMap fun (_, r) => r.kinds ofTerm) :
    (ofRules rules ofTerm extras families).hasKind kind named = true := by
  simp only [ofRules, Std.HashSet.contains_ofList, List.contains_iff_mem]
  exact List.mem_append_left _ h

theorem hasRole_ofRules {role : String} (h : role ∈ rules.flatMap fun (_, r) => r.roles) :
    (ofRules rules ofTerm extras families).hasRole role = true := by
  simp only [ofRules, Std.HashSet.contains_ofList, List.contains_iff_mem]
  exact h

/-- The children of a node that its rule mentions itself are known. -/
theorem parts?_ofRules {name kind : String} {r : Rule τ} (h : (name, .node kind r) ∈ rules)
    {ps : List Part} (hps : ps ⊆ r.ownParts ofTerm) (hne : ps ≠ []) :
    ∃ qs, (ofRules rules ofTerm extras families).parts? kind = some qs ∧ ps ⊆ qs := by
  obtain ⟨known, hknown⟩ := contentsOf_eq ofTerm rules
  have hfound : (kind, r.exposed ofTerm known) ∈
      rules.flatMap fun (_, r) => r.contents ofTerm known ∅ :=
    List.mem_flatMap.mpr ⟨_, h, List.mem_cons_self⟩
  have hnoted : ∀ p ∈ ps, Noted (contentsOf ofTerm rules) kind p := by
    intro p hp
    rw [hknown]
    exact noted_foldl hfound (r.mem_exposed known (hps hp)) ∅
  obtain ⟨first, hfirst⟩ := List.exists_mem_of_ne_nil ps hne
  obtain ⟨qs, hqs, -⟩ := hnoted first hfirst
  refine ⟨qs.toList, by simp only [ofRules, hqs, Option.map_some], fun p hp => ?_⟩
  obtain ⟨qs', hqs', hmem⟩ := hnoted p hp
  obtain rfl : qs = qs' := Option.some.inj (hqs.symm.trans hqs')
  exact Std.HashSet.mem_toList.mpr hmem

end Vocabulary

end SourceFacts.Syntax
