import SourceFacts.Engine
import SourceFacts.Proofs.CallOrder.Sorting

/-!
# Outlines in call order

Putting an outline in call order arranges the functions of the module, and in each class its
methods, and touches nothing else (`inCallOrder_arranged`). What becomes of one scope is said by
`Arranged`: its functions are all kept as they are; they stay where they are if their calls form a
cycle, and otherwise callees come before callers.
-/

namespace SourceFacts

namespace CallOrder

/-- What the ordering makes of the functions of one scope. -/
structure Arranged (scope : Scope) (before after : List FunctionOutline) : Prop where
  perm : after.Perm before
  /-- Where calls form a cycle, nothing moves. -/
  kept : (∃ i, Relation.TransGen (DependsOn scope before) i i) → after = before
  /-- Otherwise the functions are taken in an order in which callees come before callers. -/
  calleesFirst : (¬ ∃ i, Relation.TransGen (DependsOn scope before) i i) →
    ∃ order : List Nat, order.Perm (List.range before.length) ∧
      IsTakenBy order before after ∧
      ∀ i j, DependsOn scope before i j → order.idxOf j < order.idxOf i

theorem arranged_sort (scope : Scope) (functions : List FunctionOutline) :
    Arranged scope functions (sort scope functions) where
  perm := sort_perm scope functions
  kept hcycle := by
    apply sort_of_eq_none
    cases h : dependencyOrder? scope functions with
    | none => rfl
    | some order =>
      obtain ⟨i, hi⟩ := hcycle
      exact absurd (idxOf_lt_of_transGen (dependencyOrder?_isOrder h).2 hi) (lt_irrefl _)
  calleesFirst hnone := by
    cases h : dependencyOrder? scope functions with
    | none => exact absurd (exists_cycle_of_eq_none h) hnone
    | some order =>
      obtain ⟨hperm, hfirst⟩ := dependencyOrder?_isOrder h
      exact ⟨order, hperm, isTakenBy_sort h, hfirst⟩

end CallOrder

open CallOrder

namespace Outline

variable {o : Outline}

theorem methods_inCallOrder {k : Nat} {c : ClassOutline} (h : o.classes[k]? = some c) :
    o.inCallOrder.classes[k]?.map (·.methods) = some (sort .methods c.methods) := by
  unfold inCallOrder
  rw [List.getElem?_map, h]
  rfl

theorem classes_inCallOrder (o : Outline) :
    List.Forall₂ (fun c c' => c' = { c with methods := c'.methods } ∧
      Arranged .methods c.methods c'.methods) o.classes o.inCallOrder.classes := by
  unfold inCallOrder
  rw [List.forall₂_map_right_iff, List.forall₂_same]
  intro c _
  exact ⟨rfl, arranged_sort .methods c.methods⟩

/-- **Ordering loses and moves nothing.** The functions of the module are arranged; the classes
stay as they are and where they are but for their methods, which are arranged in each; and what
becomes of one scope is the same whatever stands in the others. -/
theorem inCallOrder_arranged (o : Outline) :
    Arranged .functions o.functions o.inCallOrder.functions ∧
    List.Forall₂ (fun c c' => c' = { c with methods := c'.methods } ∧
      Arranged .methods c.methods c'.methods) o.classes o.inCallOrder.classes ∧
    ∀ o' : Outline,
      (o'.functions = o.functions → o'.inCallOrder.functions = o.inCallOrder.functions) ∧
      ∀ (k k' : Nat) (c c' : ClassOutline), o.classes[k]? = some c → o'.classes[k']? = some c' →
        c'.methods = c.methods →
        o'.inCallOrder.classes[k']?.map (·.methods) =
          o.inCallOrder.classes[k]?.map (·.methods) := by
  refine ⟨arranged_sort .functions o.functions, classes_inCallOrder o, fun o' => ⟨?_, ?_⟩⟩
  · intro hsame
    unfold inCallOrder
    rw [hsame]
  · intro k k' c c' hc hc' hsame
    rw [methods_inCallOrder hc, methods_inCallOrder hc', hsame]

end Outline

end SourceFacts
