import SourceFacts.Proofs.CallOrder.Progress

/-!
# The order found is right, and none is missed

The ordering of a scope fails exactly where its functions depend on each other in a cycle.
Otherwise it lists every function once, each after those that it depends on
(`dependencyOrder?_spec`).
-/

namespace SourceFacts.CallOrder

variable {scope : Scope} {functions : List FunctionOutline}

/-! ## Positions -/

/-- In the order of placing, a callee stands before its caller. -/
theorem idxOf_lt_of_calleesFirst {cs : List (List Nat)} {placed : List Nat}
    (hfirst : CalleesFirst cs placed) (hn : placed.Nodup) {i j : Nat} (hi : i ∈ placed)
    (hj : j ∈ cs.getD i []) : placed.reverse.idxOf j < placed.reverse.idxOf i := by
  induction placed with
  | nil => simp at hi
  | cons a earlier ih =>
    obtain ⟨ha, hearlier⟩ := List.nodup_cons.mp hn
    obtain ⟨hcallees, hrest⟩ := hfirst
    rw [List.reverse_cons]
    rcases List.mem_cons.mp hi with rfl | hi
    · have hje : j ∈ earlier.reverse := List.mem_reverse.mpr (hcallees j hj)
      have hie : i ∉ earlier.reverse := fun h => ha (List.mem_reverse.mp h)
      rw [List.idxOf_append_of_mem hje, List.idxOf_append_of_notMem hie]
      have := List.idxOf_lt_length_of_mem hje
      omega
    · have hlt := ih hrest hearlier hi
      have hie : i ∈ earlier.reverse := List.mem_reverse.mpr hi
      have hje : j ∈ earlier.reverse :=
        List.idxOf_lt_length_iff.mp (hlt.trans (List.idxOf_lt_length_of_mem hie))
      rwa [List.idxOf_append_of_mem hje, List.idxOf_append_of_mem hie]

/-! ## Both outcomes -/

/-- An order that is found lists every function once, each after its callees. -/
theorem dependencyOrder?_isOrder {order : List Nat}
    (h : dependencyOrder? scope functions = some order) :
    order.Perm (List.range functions.length) ∧
      ∀ i j, DependsOn scope functions i j → order.idxOf j < order.idxOf i := by
  have hcs : Proper (callees scope functions) := callees_proper
  have hsound := (Progress.Sound.start _).run hcs (callees scope functions).length
  unfold dependencyOrder? at h
  dsimp only at h
  generalize Progress.run _ _ _ = p at h hsound
  split at h
  case isFalse => cases h
  case isTrue hlen =>
    cases h
    have hn : p.placed.Nodup := (List.nodup_append.mp hsound.unique).2.1
    have hall : p.placed.Perm (List.range functions.length) := by
      refine (List.subperm_of_subset hn fun i hi => ?_).perm_of_length_le ?_
      · have hbound := ((hsound.ready i).mp (Or.inr hi)).1
        rwa [length_callees, ← List.mem_range] at hbound
      · rw [List.length_range, hlen, length_callees]
    refine ⟨(List.reverse_perm _).trans hall, fun i j hd => ?_⟩
    have hi : i ∈ p.placed := by
      obtain ⟨f, c, hf, -⟩ := hd
      exact hall.mem_iff.mpr (List.mem_range.mpr (List.getElem?_eq_some_iff.mp hf).1)
    exact idxOf_lt_of_calleesFirst hsound.ordered hn hi (mem_callees_iff.mpr hd)

/-- Where no order is found, the functions left over go on depending on each other. -/
theorem exists_cycle_of_eq_none (h : dependencyOrder? scope functions = none) :
    ∃ i, Relation.TransGen (DependsOn scope functions) i i := by
  have hcs : Proper (callees scope functions) := callees_proper
  have hsound := (Progress.Sound.start _).run hcs (callees scope functions).length
  have hend := Progress.queue_run hcs
  unfold dependencyOrder? at h
  dsimp only at h
  generalize Progress.run _ _ _ = p at h hsound hend
  split at h
  case isTrue => cases h
  case isFalse hlen =>
    have hready : ∀ i, i ∈ p.placed ↔ i < (callees scope functions).length ∧
        ∀ j ∈ (callees scope functions).getD i [], j ∈ p.placed := by
      intro i
      rw [← hsound.ready i, hend]
      simp
    refine exists_cycle (n := (callees scope functions).length)
      (s := fun i => i < (callees scope functions).length ∧ i ∉ p.placed) ?_ (fun i hi => hi.1) ?_
    · by_contra hnone
      push Not at hnone
      have hge := List.nodup_range.length_le_of_subset
        fun i hi => hnone i (List.mem_range.mp hi)
      have hle := hsound.length_le
      rw [List.length_range] at hge
      omega
    · rintro i ⟨hi, hnot⟩
      have hmiss : ¬ ∀ j ∈ (callees scope functions).getD i [], j ∈ p.placed :=
        fun hall => hnot ((hready i).mpr ⟨hi, hall⟩)
      push Not at hmiss
      obtain ⟨j, hj, hjnot⟩ := hmiss
      exact ⟨j, ⟨hcs.bounded i j hj, hjnot⟩, mem_callees_iff.mp hj⟩

/-- Along dependencies the positions of an order decrease. -/
theorem idxOf_lt_of_transGen {order : List Nat}
    (h : ∀ i j, DependsOn scope functions i j → order.idxOf j < order.idxOf i) {i j : Nat}
    (hd : Relation.TransGen (DependsOn scope functions) i j) :
    order.idxOf j < order.idxOf i := by
  induction hd with
  | single edge => exact h _ _ edge
  | tail _ edge ih => exact (h _ _ edge).trans ih

/-- **Callees before callers.** There is no order exactly where the functions of a scope depend
on each other in a cycle; the order found otherwise lists every function once, each after those
that it depends on. -/
theorem dependencyOrder?_spec (scope : Scope) (functions : List FunctionOutline) :
    (dependencyOrder? scope functions = none ↔
      ∃ i, Relation.TransGen (DependsOn scope functions) i i) ∧
    ∀ order, dependencyOrder? scope functions = some order →
      order.Perm (List.range functions.length) ∧
        ∀ i j, DependsOn scope functions i j → order.idxOf j < order.idxOf i := by
  refine ⟨⟨exists_cycle_of_eq_none, ?_⟩, fun order => dependencyOrder?_isOrder⟩
  rintro ⟨i, hcycle⟩
  cases h : dependencyOrder? scope functions with
  | none => rfl
  | some order =>
    exact absurd (idxOf_lt_of_transGen (dependencyOrder?_isOrder h).2 hcycle) (lt_irrefl _)

end SourceFacts.CallOrder
