import SourceFacts.CallOrder
import SourceFacts.Proofs.Lists
import Mathlib.Logic.Relation
import Mathlib.Data.Fintype.EquivFin
import Mathlib.Order.WellFounded

/-!
# Which function depends on which

A function depends on those it calls, other than by its own name; a name stands for the first
function that bears it. The ordering reads this relation off lists of callees
(`mem_callees_iff`), each of which names functions of the scope, each once (`callees_proper`).

Functions that each depend on another of them run into a cycle (`exists_cycle`).
-/

namespace SourceFacts.CallOrder

variable {scope : Scope} {functions : List FunctionOutline}

/-- The function at `j` is the first that bears the name. -/
def FirstNamed (functions : List FunctionOutline) (name : String) (j : Nat) : Prop :=
  (∃ g, functions[j]? = some g ∧ g.name = name) ∧
    ∀ k < j, ∀ g, functions[k]? = some g → g.name ≠ name

/-- The function at `i` makes a call that the scope resolves, by a name other than its own, and
the function at `j` is the first that bears this name. -/
def DependsOn (scope : Scope) (functions : List FunctionOutline) (i j : Nat) : Prop :=
  ∃ f c, functions[i]? = some f ∧ c ∈ f.calls ∧ scope.resolves c = true ∧ c.name ≠ f.name ∧
    FirstNamed functions c.name j

/-- The lists of callees of a scope: each names functions of the scope, each once. -/
structure Proper (callees : List (List Nat)) : Prop where
  nodup : ∀ i, (callees.getD i []).Nodup
  bounded : ∀ i, ∀ j ∈ callees.getD i [], j < callees.length

/-! ## Names -/

theorem indexOf?_eq_some_iff {name : String} {j : Nat} :
    indexOf? functions name = some j ↔ FirstNamed functions name j := by
  unfold indexOf? FirstNamed
  rw [List.findIdx?_eq_some_iff_getElem]
  constructor
  · rintro ⟨hj, hname, hfirst⟩
    refine ⟨⟨functions[j], List.getElem?_eq_getElem hj, by simpa using hname⟩, ?_⟩
    intro k hk g hg heq
    obtain ⟨hk', rfl⟩ := List.getElem?_eq_some_iff.mp hg
    exact hfirst k hk (by simpa using heq)
  · rintro ⟨⟨g, hg, hname⟩, hfirst⟩
    obtain ⟨hj, rfl⟩ := List.getElem?_eq_some_iff.mp hg
    refine ⟨hj, by simpa using hname, ?_⟩
    intro k hk heq
    exact hfirst k hk _ (List.getElem?_eq_getElem _) (by simpa using heq)

theorem firstNamed_lt {name : String} {j : Nat} (h : FirstNamed functions name j) :
    j < functions.length := by
  obtain ⟨⟨g, hg, -⟩, -⟩ := h
  exact (List.getElem?_eq_some_iff.mp hg).1

theorem dependsOn_lt {i j : Nat} (h : DependsOn scope functions i j) :
    i < functions.length ∧ j < functions.length := by
  obtain ⟨f, c, hf, -, -, -, hfirst⟩ := h
  exact ⟨(List.getElem?_eq_some_iff.mp hf).1, firstNamed_lt hfirst⟩

/-! ## Callees -/

theorem mem_calleesOf {f : FunctionOutline} {j : Nat} :
    j ∈ calleesOf scope functions f ↔
      ∃ c ∈ f.calls, scope.resolves c = true ∧ c.name ≠ f.name ∧
        FirstNamed functions c.name j := by
  simp only [calleesOf, List.mem_eraseDups, List.mem_filterMap, List.mem_filter,
    Bool.and_eq_true, bne_iff_ne, indexOf?_eq_some_iff, and_assoc]

theorem length_callees : (callees scope functions).length = functions.length := by
  simp [callees]

theorem mem_callees_iff {i j : Nat} :
    j ∈ (callees scope functions).getD i [] ↔ DependsOn scope functions i j := by
  unfold callees DependsOn
  rw [List.getD_eq_getElem?_getD, List.getElem?_map]
  cases hf : functions[i]? with
  | none => simp
  | some f => simp [mem_calleesOf]

theorem callees_proper : Proper (callees scope functions) where
  nodup i := by
    unfold callees
    rw [List.getD_eq_getElem?_getD, List.getElem?_map]
    cases functions[i]? with
    | none => simp
    | some f => exact Lists.nodup_eraseDups _
  bounded i j hj := by
    obtain ⟨f, c, -, -, -, -, hfirst⟩ := mem_callees_iff.mp hj
    rw [length_callees]
    exact firstNamed_lt hfirst

theorem mem_callersOf {cs : List (List Nat)} {i j : Nat} :
    j ∈ callersOf cs i ↔ i ∈ cs.getD j [] := by
  unfold callersOf
  rw [List.mem_filter, List.mem_range, List.getD_eq_getElem?_getD]
  cases h : cs[j]? with
  | none => simp
  | some l => simp [(List.getElem?_eq_some_iff.mp h).1]

theorem nodup_callersOf {cs : List (List Nat)} {i : Nat} : (callersOf cs i).Nodup :=
  List.nodup_range.filter _

/-! ## Cycles -/

/-- Where every member of a bounded nonempty set is related to a member, some member is related
to itself through others. -/
theorem exists_cycle {r : Nat → Nat → Prop} {n : Nat} {s : Nat → Prop} (hs : ∃ i, s i)
    (hbound : ∀ i, s i → i < n) (hnext : ∀ i, s i → ∃ j, s j ∧ r i j) :
    ∃ i, Relation.TransGen r i i := by
  by_contra hnone
  push Not at hnone
  -- without a cycle the relation is well-founded below the bound, so a last member is left
  let below : Fin n → Fin n → Prop := fun a b => Relation.TransGen r b a
  have : IsTrans (Fin n) below := ⟨fun _ _ _ hab hbc => hbc.trans hab⟩
  have : Std.Irrefl below := ⟨fun a => hnone a⟩
  have hwf : WellFounded below := Finite.wellFounded_of_trans_of_irrefl below
  obtain ⟨i, hi⟩ := hs
  obtain ⟨last, hlast, hmin⟩ := hwf.has_min {a | s a} ⟨⟨i, hbound i hi⟩, hi⟩
  obtain ⟨j, hj, hr⟩ := hnext last hlast
  exact hmin ⟨j, hbound j hj⟩ hj (Relation.TransGen.single hr)

end SourceFacts.CallOrder
