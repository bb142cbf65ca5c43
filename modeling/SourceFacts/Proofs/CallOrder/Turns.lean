import SourceFacts.Proofs.CallOrder.Correctness

/-!
# First released, first placed

A function is released when the last of its callees is placed. `releasedAt` counts how many
functions of an order are placed by then. Functions wait in line: whoever was released earlier
comes first, and of those released together, whoever stands first in the scope (`Precedes`).

`InTurn` says this of an order without the ordering's counters and queue. Every step only adds
to the end of the line, which therefore stays in turn (`Sound.sorted_line_step`). Two orders in turn
cannot part at any place (`next_eq`), so the order found is the only one that is in turn
(`dependencyOrder?_eq_some_iff`).
-/

namespace SourceFacts.CallOrder

/-- How many functions of the order are placed once the last callee of `i` is. -/
def releasedAt (callees : List (List Nat)) (order : List Nat) (i : Nat) : Nat :=
  ((callees.getD i []).map fun j => order.idxOf j + 1).foldr max 0

/-- The turn of `i` comes before that of `j`. -/
def Precedes (callees : List (List Nat)) (order : List Nat) (i j : Nat) : Prop :=
  releasedAt callees order i < releasedAt callees order j ∨
    releasedAt callees order i = releasedAt callees order j ∧ i < j

/-- An order of all functions in which each has its turn. -/
structure InTurn (callees : List (List Nat)) (order : List Nat) : Prop where
  complete : order.Perm (List.range callees.length)
  released : ∀ i ∈ order, releasedAt callees order i ≤ order.idxOf i
  sorted : order.Pairwise (Precedes callees order)

variable {cs : List (List Nat)} {order front back : List Nat}

/-! ## When a function is released -/

theorem releasedAt_le_iff {i m : Nat} :
    releasedAt cs order i ≤ m ↔ ∀ j ∈ cs.getD i [], order.idxOf j < m := by
  unfold releasedAt
  induction cs.getD i [] with
  | nil => simp
  | cons j rest ih =>
    rw [List.map_cons, List.foldr_cons, max_le_iff, ih, List.forall_mem_cons, Nat.succ_le_iff]

theorem idxOf_lt_releasedAt {i j : Nat} (h : j ∈ cs.getD i []) :
    order.idxOf j < releasedAt cs order i :=
  releasedAt_le_iff.mp le_rfl j h

theorem exists_callee_of_lt_releasedAt {i m : Nat} (h : m < releasedAt cs order i) :
    ∃ j ∈ cs.getD i [], m ≤ order.idxOf j := by
  by_contra hnone
  push Not at hnone
  exact absurd (releasedAt_le_iff.mpr hnone) (Nat.not_le_of_lt h)

/-- Only the places of the callees bear on when a function is released. -/
theorem releasedAt_eq_of_places {cs' : List (List Nat)} {order' : List Nat} {i i' : Nat}
    (h : ∀ k, (∃ j ∈ cs.getD i [], order.idxOf j = k) ↔
      ∃ j ∈ cs'.getD i' [], order'.idxOf j = k) :
    releasedAt cs order i = releasedAt cs' order' i' := by
  apply eq_of_forall_ge_iff
  intro m
  rw [releasedAt_le_iff, releasedAt_le_iff]
  constructor
  · intro hall j hj
    obtain ⟨k, hk, hplace⟩ := (h _).mpr ⟨j, hj, rfl⟩
    exact hplace ▸ hall k hk
  · intro hall j hj
    obtain ⟨k, hk, hplace⟩ := (h _).mp ⟨j, hj, rfl⟩
    exact hplace ▸ hall k hk

/-- What stands behind all callees of a function does not bear on its release. -/
theorem releasedAt_append {i : Nat} (h : ∀ j ∈ cs.getD i [], j ∈ front) :
    releasedAt cs (front ++ back) i = releasedAt cs front i := by
  apply releasedAt_eq_of_places
  intro k
  apply exists_congr
  intro j
  apply and_congr_right
  intro hj
  rw [List.idxOf_append_of_mem (h j hj)]

theorem releasedAt_le_length {i : Nat} (h : ∀ j ∈ cs.getD i [], j ∈ front) :
    releasedAt cs front i ≤ front.length := by
  rw [releasedAt_le_iff]
  intro j hj
  exact List.idxOf_lt_length_of_mem (h j hj)

/-- A function whose last callee has just been placed is released at that moment. -/
theorem releasedAt_snoc {a i : Nat} (ha : a ∉ front) (hcall : a ∈ cs.getD i [])
    (h : ∀ j ∈ cs.getD i [], j ∈ front ++ [a]) :
    releasedAt cs (front ++ [a]) i = front.length + 1 := by
  -- no callee stands behind the last place, and one stands there
  have hupper := releasedAt_le_length h
  have hlower : (front ++ [a]).idxOf a < releasedAt cs (front ++ [a]) i :=
    idxOf_lt_releasedAt hcall
  rw [List.idxOf_append_of_notMem ha] at hlower
  simp only [List.length_append, List.length_singleton, List.idxOf_cons_self] at hupper hlower
  omega

theorem Precedes.asymm {i j : Nat} (h : Precedes cs order i j) : ¬ Precedes cs order j i := by
  unfold Precedes at *
  omega

theorem precedes_append {i j : Nat} (hi : ∀ k ∈ cs.getD i [], k ∈ front)
    (hj : ∀ k ∈ cs.getD j [], k ∈ front) :
    Precedes cs (front ++ back) i j ↔ Precedes cs front i j := by
  unfold Precedes
  rw [releasedAt_append hi, releasedAt_append hj]

/-! ## Places in an order -/

namespace InTurn

theorem nodup (h : InTurn cs order) : order.Nodup :=
  h.complete.nodup_iff.mpr List.nodup_range

theorem idxOf_lt_of_callee (h : InTurn cs order) {i j : Nat} (hi : i ∈ order)
    (hj : j ∈ cs.getD i []) : order.idxOf j < order.idxOf i :=
  (idxOf_lt_releasedAt hj).trans_le (h.released i hi)

/-- Whoever has its turn first comes first. -/
theorem idxOf_lt_iff (h : InTurn cs order) {i j : Nat} (hi : i ∈ order) (hj : j ∈ order) :
    order.idxOf i < order.idxOf j ↔ Precedes cs order i j := by
  have hforward : ∀ {k l : Nat}, k ∈ order → l ∈ order → order.idxOf k < order.idxOf l →
      Precedes cs order k l := by
    intro k l hk hl hlt
    have hkl := List.pairwise_iff_getElem.mp h.sorted _ _ (List.idxOf_lt_length_of_mem hk)
      (List.idxOf_lt_length_of_mem hl) hlt
    rwa [List.getElem_idxOf, List.getElem_idxOf] at hkl
  refine ⟨hforward hi hj, fun hij => ?_⟩
  rcases lt_trichotomy (order.idxOf i) (order.idxOf j) with hlt | heq | hgt
  · exact hlt
  · -- nobody has its turn before itself
    have hsame : i = j := (List.idxOf_inj hi).mp heq
    subst hsame
    exact absurd hij hij.asymm
  · exact absurd hij (hforward hj hi hgt).asymm

theorem releasedAt_mono (h : InTurn cs order) {i j : Nat} (hi : i ∈ order) (hj : j ∈ order)
    (hle : order.idxOf i ≤ order.idxOf j) : releasedAt cs order i ≤ releasedAt cs order j := by
  rcases hle.eq_or_lt with heq | hlt
  · rw [(List.idxOf_inj hi).mp heq]
  · rcases (h.idxOf_lt_iff hi hj).mp hlt with hearlier | ⟨hsame, -⟩
    · exact hearlier.le
    · exact hsame.le

end InTurn

/-! ## The line -/

namespace Progress

/-- The functions that have been placed, and behind them those that wait. -/
def line (p : Progress) : List Nat := p.placed.reverse ++ p.queue

variable {p : Progress}

theorem line_eq_of_queue_cons {a : Nat} {rest : List Nat} (hq : p.queue = a :: rest) :
    (p.step cs).line = p.placed.reverse ++ [a] ++ (p.step cs).queue := by
  unfold line
  rw [placed_step hq, List.reverse_cons]

/-- A step adds to the end of the line the callers that miss nothing else. -/
theorem line_step {a : Nat} {rest : List Nat} (hq : p.queue = a :: rest) :
    (p.step cs).line = p.line ++ (callersOf cs a).filter fun c => p.missing.getD c 0 ≤ 1 := by
  rw [line_eq_of_queue_cons hq, queue_step hq, line, hq]
  simp only [List.append_assoc, List.cons_append, List.nil_append]

theorem line_prefix_run (cs : List (List Nat)) (p : Progress) (n : Nat) :
    p.line <+: (p.run cs n).line := by
  induction n generalizing p with
  | zero => exact List.prefix_rfl
  | succ n ih =>
    have hstep : p.line <+: (p.step cs).line := by
      cases hq : p.queue with
      | nil => rw [step_of_queue_nil hq]
      | cons a rest =>
        rw [line_step hq]
        exact List.prefix_append _ _
    exact hstep.trans (ih (p.step cs))

namespace Sound

theorem callees_placed (h : Sound cs p) {i : Nat} (hi : i ∈ p.line) :
    ∀ j ∈ cs.getD i [], j ∈ p.placed.reverse := by
  intro j hj
  have hready : i ∈ p.queue ∨ i ∈ p.placed := by
    rcases List.mem_append.mp hi with hi | hi
    · exact Or.inr (List.mem_reverse.mp hi)
    · exact Or.inl hi
  exact List.mem_reverse.mpr (((h.ready i).mp hready).2 j hj)

theorem precedes_line (h : Sound cs p) {i j : Nat} (hi : i ∈ p.line) (hj : j ∈ p.line)
    (back : List Nat) :
    Precedes cs (p.line ++ back) i j ↔ Precedes cs p.line i j := by
  unfold line
  rw [List.append_assoc, precedes_append (h.callees_placed hi) (h.callees_placed hj),
    precedes_append (h.callees_placed hi) (h.callees_placed hj)]

theorem sorted_line_start (cs : List (List Nat)) :
    (Progress.start cs).line.Pairwise (Precedes cs (Progress.start cs).line) := by
  have hfree : ∀ i ∈ (Progress.start cs).line,
      releasedAt cs (Progress.start cs).line i = 0 := by
    intro i hi
    have hnone := (Sound.start cs).callees_placed hi
    apply Nat.le_zero.mp
    rw [releasedAt_le_iff]
    intro j hj
    exact absurd (hnone j hj) (by simp [Progress.start])
  have hsorted : (Progress.start cs).line.Pairwise (· < ·) := by
    simpa [line, Progress.start] using List.pairwise_lt_range.filter _
  apply hsorted.imp_of_mem
  intro i j hi hj hlt
  exact Or.inr ⟨(hfree i hi).trans (hfree j hj).symm, hlt⟩

theorem releasedAt_step_of_mem (h : Sound cs p) {a i : Nat} {rest : List Nat}
    (hq : p.queue = a :: rest) (hi : i ∈ p.line) :
    releasedAt cs (p.step cs).line i ≤ p.placed.reverse.length := by
  have hplaced := h.callees_placed hi
  rw [line_eq_of_queue_cons hq, List.append_assoc, releasedAt_append hplaced]
  exact releasedAt_le_length hplaced

/-- Those that a step adds to the line are released by it. -/
theorem releasedAt_step_of_added (hcs : Proper cs) (h : Sound cs p) {a c : Nat}
    {rest : List Nat} (hq : p.queue = a :: rest)
    (hc : c ∈ (callersOf cs a).filter fun c => p.missing.getD c 0 ≤ 1) :
    releasedAt cs (p.step cs).line c = p.placed.reverse.length + 1 := by
  obtain ⟨hcall, hmiss⟩ := List.mem_filter.mp hc
  have ha : a ∉ p.placed.reverse := by
    rw [List.mem_reverse]
    exact h.head_notMem_placed hq
  have hall := (h.missing_le_one_iff hcs hq hcall).mp (of_decide_eq_true hmiss)
  have hplaced : ∀ j ∈ cs.getD c [], j ∈ p.placed.reverse ++ [a] := by
    intro j hj
    rw [← List.reverse_cons, List.mem_reverse]
    exact hall j hj
  rw [line_eq_of_queue_cons hq, releasedAt_append hplaced,
    releasedAt_snoc ha (mem_callersOf.mp hcall) hplaced]

/-- The line stays in turn: whoever is added was released after all that stand in it, and those
added together are added in the order of the scope. -/
theorem sorted_line_step (hcs : Proper cs) (h : Sound cs p)
    (hline : p.line.Pairwise (Precedes cs p.line)) :
    (p.step cs).line.Pairwise (Precedes cs (p.step cs).line) := by
  cases hq : p.queue with
  | nil => rwa [step_of_queue_nil hq]
  | cons a rest =>
    -- those in line have their callees among the placed, so the longer line does not reorder them
    have hkept : p.line.Pairwise (Precedes cs (p.step cs).line) := by
      apply hline.imp_of_mem
      intro i j hi hj hij
      rw [line_step hq, h.precedes_line hi hj]
      exact hij
    have hadded : ((callersOf cs a).filter fun c => p.missing.getD c 0 ≤ 1).Pairwise
        (Precedes cs (p.step cs).line) := by
      have hcallers : (callersOf cs a).Pairwise (· < ·) := List.pairwise_lt_range.filter _
      apply (hcallers.filter _).imp_of_mem
      intro i j hi hj hlt
      have hsame := (h.releasedAt_step_of_added hcs hq hi).trans
        (h.releasedAt_step_of_added hcs hq hj).symm
      exact Or.inr ⟨hsame, hlt⟩
    have hboth : (p.line ++ (callersOf cs a).filter fun c => p.missing.getD c 0 ≤ 1).Pairwise
        (Precedes cs (p.step cs).line) := by
      refine List.pairwise_append.mpr ⟨hkept, hadded, ?_⟩
      intro i hi c hc
      have hbefore := h.releasedAt_step_of_mem hq hi
      have hnow := h.releasedAt_step_of_added hcs hq hc
      exact Or.inl (by omega)
    rwa [← line_step hq] at hboth

theorem sorted_line_run (hcs : Proper cs) (h : Sound cs p)
    (hline : p.line.Pairwise (Precedes cs p.line)) (n : Nat) :
    (p.run cs n).line.Pairwise (Precedes cs (p.run cs n).line) := by
  induction n generalizing p with
  | zero => exact hline
  | succ n ih => exact ih (h.step hcs) (h.sorted_line_step hcs hline)

end Sound

end Progress

/-! ## One order only -/

namespace InTurn

theorem notMem_front {a : Nat} (h : InTurn cs (front ++ a :: back)) : a ∉ front := by
  intro ha
  have hn := (List.nodup_append.mp h.nodup).2.2
  exact hn a ha a List.mem_cons_self rfl

theorem callees_front {a : Nat} (h : InTurn cs (front ++ a :: back)) :
    ∀ j ∈ cs.getD a [], j ∈ front := by
  intro j hj
  have hlt := h.idxOf_lt_of_callee (by simp) hj
  rw [List.idxOf_append_of_notMem h.notMem_front, List.idxOf_cons_self] at hlt
  by_contra hnot
  rw [List.idxOf_append_of_notMem hnot] at hlt
  omega

/-- Where another order goes on with `b` instead, `b` still comes behind `a` in this one. -/
theorem precedes_of_fork {a b : Nat} {back' : List Nat} (h : InTurn cs (front ++ a :: back))
    (h' : InTurn cs (front ++ b :: back')) (hne : a ≠ b) :
    Precedes cs (front ++ a :: back) a b := by
  have hb : b ∈ front ++ a :: back := by
    rw [h.complete.mem_iff, ← h'.complete.mem_iff]
    simp
  have hback : b ∈ back := by
    rcases List.mem_append.mp hb with hb | hb
    · exact absurd hb h'.notMem_front
    · exact (List.mem_cons.mp hb).resolve_left (Ne.symm hne)
  have hsorted := (List.pairwise_append.mp h.sorted).2.1
  exact (List.pairwise_cons.mp hsorted).1 b hback

/-- Behind a common front, two orders in turn go on with the same function: both release it and
its rival alike, since all callees of the two are in the front. -/
theorem next_eq {a b : Nat} {back' : List Nat} (h : InTurn cs (front ++ a :: back))
    (h' : InTurn cs (front ++ b :: back')) : a = b := by
  by_contra hne
  have hab := h.precedes_of_fork h' hne
  have hba := h'.precedes_of_fork h (Ne.symm hne)
  rw [precedes_append h.callees_front h'.callees_front] at hab
  rw [precedes_append h'.callees_front h.callees_front] at hba
  exact hab.asymm hba

theorem back_eq {back' : List Nat} (h : InTurn cs (front ++ back))
    (h' : InTurn cs (front ++ back')) : back = back' := by
  have hlength : back.length = back'.length := by
    have hperm := (h.complete.trans h'.complete.symm).length_eq
    simpa only [List.length_append, Nat.add_left_cancel_iff] using hperm
  -- the front takes over the function that both orders go on with
  induction back generalizing front back' with
  | nil => exact (List.length_eq_zero_iff.mp hlength.symm).symm
  | cons a rest ih =>
    cases back' with
    | nil => simp at hlength
    | cons b rest' =>
      obtain rfl := h.next_eq h'
      rw [← List.singleton_append, ← List.append_assoc] at h
      rw [← List.singleton_append (l := rest'), ← List.append_assoc] at h'
      rw [ih h h' (Nat.succ.inj hlength)]

theorem unique {order' : List Nat} (h : InTurn cs order) (h' : InTurn cs order') :
    order = order' := by
  have hall : InTurn cs ([] ++ order) := h
  have hall' : InTurn cs ([] ++ order') := h'
  exact back_eq hall hall'

end InTurn

/-! ## The order found -/

variable {scope : Scope} {functions : List FunctionOutline}

/-- In the end all of the line is placed, and that is the order. -/
theorem Progress.line_run_of_eq_some (h : dependencyOrder? scope functions = some order) :
    ((Progress.start (callees scope functions)).run (callees scope functions)
      (callees scope functions).length).line = order := by
  unfold dependencyOrder? at h
  dsimp only at h
  split at h
  case isFalse => cases h
  case isTrue =>
    cases h
    rw [Progress.line, Progress.queue_run callees_proper, List.append_nil]

theorem inTurn_of_eq_some (h : dependencyOrder? scope functions = some order) :
    InTurn (callees scope functions) order := by
  obtain ⟨hperm, hfirst⟩ := dependencyOrder?_isOrder h
  refine ⟨by rwa [length_callees], ?_, ?_⟩
  · intro i _
    rw [releasedAt_le_iff]
    intro j hj
    exact hfirst i j (mem_callees_iff.mp hj)
  · have hcs : Proper (callees scope functions) := callees_proper
    have hsorted := (Progress.Sound.start _).sorted_line_run hcs (Progress.Sound.sorted_line_start _)
      (callees scope functions).length
    rwa [Progress.line_run_of_eq_some h] at hsorted

namespace InTurn

theorem perm_range (h : InTurn (callees scope functions) order) :
    order.Perm (List.range functions.length) := by
  have hperm := h.complete
  rwa [length_callees] at hperm

theorem mem_of_dependsOn (h : InTurn (callees scope functions) order) {i j : Nat}
    (hd : DependsOn scope functions i j) : i ∈ order ∧ j ∈ order := by
  simp only [h.perm_range.mem_iff, List.mem_range]
  exact dependsOn_lt hd

theorem idxOf_lt_of_dependsOn (h : InTurn (callees scope functions) order) {i j : Nat}
    (hd : DependsOn scope functions i j) : order.idxOf j < order.idxOf i :=
  h.idxOf_lt_of_callee (h.mem_of_dependsOn hd).1 (mem_callees_iff.mpr hd)

end InTurn

/-- **First released, first placed.** The order found is the one order in turn; where there is
none, none is found. -/
theorem dependencyOrder?_eq_some_iff :
    dependencyOrder? scope functions = some order ↔ InTurn (callees scope functions) order := by
  refine ⟨inTurn_of_eq_some, fun h => ?_⟩
  cases hfound : dependencyOrder? scope functions with
  | none =>
    -- along a cycle the places would decrease for ever
    obtain ⟨i, hcycle⟩ := exists_cycle_of_eq_none hfound
    exact absurd (idxOf_lt_of_transGen (fun _ _ => h.idxOf_lt_of_dependsOn) hcycle)
      (lt_irrefl _)
  | some found => rw [(inTurn_of_eq_some hfound).unique h]

end SourceFacts.CallOrder
