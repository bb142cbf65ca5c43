import SourceFacts.Proofs.CallOrder.Relation

/-!
# The ordering, step by step

What holds before and after each step of the ordering (`Sound`): every counter is the number of
callees that are not placed yet, exactly those functions wait or are placed whose callees are
all placed, nothing waits or is placed twice, and callees were placed before callers.

A step keeps this (`Sound.step`), hence so do all steps together (`Sound.run`). After as many
steps as there are functions nothing waits any more (`queue_run`).
-/

namespace SourceFacts.CallOrder

/-- How many callees of a function are not placed. -/
def unplaced (callees : List (List Nat)) (placed : List Nat) (i : Nat) : Nat :=
  (callees.getD i []).countP (· ∉ placed)

/-- Each placed function stands after its callees; the latest comes first in the list. -/
def CalleesFirst (callees : List (List Nat)) : List Nat → Prop
  | [] => True
  | i :: earlier => (∀ j ∈ callees.getD i [], j ∈ earlier) ∧ CalleesFirst callees earlier

namespace Progress

/-- What holds between any two steps. -/
structure Sound (callees : List (List Nat)) (p : Progress) : Prop where
  missing : ∀ i, p.missing.getD i 0 = unplaced callees p.placed i
  ready : ∀ i, i ∈ p.queue ∨ i ∈ p.placed ↔
    i < callees.length ∧ ∀ j ∈ callees.getD i [], j ∈ p.placed
  unique : (p.queue ++ p.placed).Nodup
  ordered : CalleesFirst callees p.placed

variable {cs : List (List Nat)} {p : Progress}

/-! ## Releasing callers -/

@[simp] theorem placed_release (c : Nat) : (p.release c).placed = p.placed := rfl

theorem missing_release (c i : Nat) :
    (p.release c).missing.getD i 0 =
      if i = c then p.missing.getD i 0 - 1 else p.missing.getD i 0 := by
  simp only [release, List.getD_eq_getElem?_getD, List.getElem?_set]
  by_cases hic : c = i
  · subst hic
    by_cases hlt : c < p.missing.length
    · simp [hlt]
    · simp [hlt]
  · simp [hic, Ne.symm hic]

theorem queue_release (c : Nat) :
    (p.release c).queue = p.queue ++ if p.missing.getD c 0 ≤ 1 then [c] else [] := by
  have hzero : p.missing.getD c 0 - 1 = 0 ↔ p.missing.getD c 0 ≤ 1 := by omega
  simp only [release, hzero]
  split <;> simp

theorem placed_releaseAll (callers : List Nat) (p : Progress) :
    (callers.foldl release p).placed = p.placed := by
  induction callers generalizing p with
  | nil => rfl
  | cons c rest ih => rw [List.foldl_cons, ih, placed_release]

theorem missing_releaseAll {callers : List Nat} (hn : callers.Nodup) (p : Progress) (i : Nat) :
    (callers.foldl release p).missing.getD i 0 =
      if i ∈ callers then p.missing.getD i 0 - 1 else p.missing.getD i 0 := by
  induction callers generalizing p with
  | nil => simp
  | cons c rest ih =>
    obtain ⟨hc, hrest⟩ := List.nodup_cons.mp hn
    rw [List.foldl_cons, ih hrest, missing_release]
    by_cases hic : i = c
    · subst hic
      simp [hc]
    · simp [hic]

/-- The callers that miss nothing else come to wait, in the order in which they are released. -/
theorem queue_releaseAll {callers : List Nat} (hn : callers.Nodup) (p : Progress) :
    (callers.foldl release p).queue =
      p.queue ++ callers.filter fun c => p.missing.getD c 0 ≤ 1 := by
  induction callers generalizing p with
  | nil => simp
  | cons c rest ih =>
    obtain ⟨hc, hrest⟩ := List.nodup_cons.mp hn
    have hsame : rest.filter (fun d => (p.release c).missing.getD d 0 ≤ 1) =
        rest.filter fun d => p.missing.getD d 0 ≤ 1 := by
      apply List.filter_congr
      intro d hd
      have hdc : d ≠ c := fun h => hc (h ▸ hd)
      rw [missing_release, if_neg hdc]
    rw [List.foldl_cons, ih hrest, hsame, queue_release, List.filter_cons]
    split <;> simp_all

/-! ## Counting what is not placed -/

theorem unplaced_eq_zero_iff {placed : List Nat} {i : Nat} :
    unplaced cs placed i = 0 ↔ ∀ j ∈ cs.getD i [], j ∈ placed := by
  simp [unplaced, List.countP_eq_zero]

theorem countP_notMem_cons {placed : List Nat} {a : Nat} (ha : a ∉ placed) {l : List Nat}
    (hl : l.Nodup) :
    l.countP (· ∉ placed) = l.countP (· ∉ a :: placed) + if a ∈ l then 1 else 0 := by
  induction l with
  | nil => simp
  | cons b rest ih =>
    obtain ⟨hb, hrest⟩ := List.nodup_cons.mp hl
    rw [List.countP_cons, List.countP_cons, ih hrest]
    by_cases hab : b = a
    · subst hab
      simp [ha, hb]
    · simp [hab, Ne.symm hab]
      omega

/-- Placing a function takes one off the count of each of its callers. -/
theorem unplaced_cons (hcs : Proper cs) {placed : List Nat} {a : Nat} (ha : a ∉ placed)
    (i : Nat) :
    unplaced cs placed i = unplaced cs (a :: placed) i + if i ∈ callersOf cs a then 1 else 0 := by
  simp only [mem_callersOf]
  exact countP_notMem_cons ha (hcs.nodup i)

/-! ## One step -/

theorem step_of_queue_nil (hq : p.queue = []) : p.step cs = p := by
  simp only [step, hq]

theorem step_of_queue_cons {a : Nat} {rest : List Nat} (hq : p.queue = a :: rest) :
    p.step cs =
      (callersOf cs a).foldl release { p with queue := rest, placed := a :: p.placed } := by
  simp only [step, hq]

theorem placed_step {a : Nat} {rest : List Nat} (hq : p.queue = a :: rest) :
    (p.step cs).placed = a :: p.placed := by
  rw [step_of_queue_cons hq, placed_releaseAll]

theorem missing_step {a : Nat} {rest : List Nat} (hq : p.queue = a :: rest) (i : Nat) :
    (p.step cs).missing.getD i 0 =
      if i ∈ callersOf cs a then p.missing.getD i 0 - 1 else p.missing.getD i 0 := by
  rw [step_of_queue_cons hq, missing_releaseAll nodup_callersOf]

theorem queue_step {a : Nat} {rest : List Nat} (hq : p.queue = a :: rest) :
    (p.step cs).queue = rest ++ (callersOf cs a).filter fun c => p.missing.getD c 0 ≤ 1 := by
  rw [step_of_queue_cons hq, queue_releaseAll nodup_callersOf]

namespace Sound

theorem start (cs : List (List Nat)) : Sound cs (Progress.start cs) where
  missing i := by
    simp only [Progress.start, unplaced, List.getD_eq_getElem?_getD, List.getElem?_map]
    cases cs[i]? <;> simp
  ready i := by
    simp only [Progress.start, List.mem_filter, List.mem_range, List.getD_eq_getElem?_getD]
    cases h : cs[i]? with
    | none => simp [List.getElem?_eq_none_iff.mp h]
    | some l => simp [List.eq_nil_iff_forall_not_mem]
  unique := by simpa [Progress.start] using List.nodup_range.filter _
  ordered := trivial

/-- What waits has not been placed. -/
theorem head_notMem_placed (h : Sound cs p) {a : Nat} {rest : List Nat}
    (hq : p.queue = a :: rest) : a ∉ p.placed := by
  have hu := h.unique
  rw [hq, List.cons_append, List.nodup_cons, List.mem_append] at hu
  exact fun ha => hu.1 (Or.inr ha)

/-- A caller of what waits neither waits nor has been placed. -/
theorem caller_not_ready (h : Sound cs p) {a c : Nat} {rest : List Nat}
    (hq : p.queue = a :: rest) (hc : c ∈ callersOf cs a) : ¬ (c ∈ p.queue ∨ c ∈ p.placed) := by
  intro hready
  have hplaced := ((h.ready c).mp hready).2 a (mem_callersOf.mp hc)
  exact h.head_notMem_placed hq hplaced

/-- A released caller comes to wait exactly when its callees are then all placed. -/
theorem missing_le_one_iff (hcs : Proper cs) (h : Sound cs p) {a c : Nat} {rest : List Nat}
    (hq : p.queue = a :: rest) (hc : c ∈ callersOf cs a) :
    p.missing.getD c 0 ≤ 1 ↔ ∀ j ∈ cs.getD c [], j ∈ a :: p.placed := by
  rw [h.missing, unplaced_cons hcs (h.head_notMem_placed hq), if_pos hc,
    ← unplaced_eq_zero_iff]
  omega

theorem ready_step (hcs : Proper cs) (h : Sound cs p) {a : Nat} {rest : List Nat}
    (hq : p.queue = a :: rest) (i : Nat) :
    i ∈ (p.step cs).queue ∨ i ∈ (p.step cs).placed ↔
      i < cs.length ∧ ∀ j ∈ cs.getD i [], j ∈ a :: p.placed := by
  rw [queue_step hq, placed_step hq, List.mem_append, List.mem_filter, decide_eq_true_eq]
  have hold := h.ready i
  rw [hq] at hold
  by_cases hc : i ∈ callersOf cs a
  · have hnot := h.caller_not_ready hq hc
    rw [hq] at hnot
    have hlt : i < cs.length := by
      by_contra hge
      have hcall := mem_callersOf.mp hc
      rw [List.getD_eq_getElem?_getD, List.getElem?_eq_none (Nat.le_of_not_lt hge)] at hcall
      simp at hcall
    rw [h.missing_le_one_iff hcs hq hc]
    simp only [List.mem_cons, not_or] at hnot ⊢
    tauto
  · -- the new member is no callee of this one, so nothing changes for it
    have hsame : (∀ j ∈ cs.getD i [], j ∈ a :: p.placed) ↔ ∀ j ∈ cs.getD i [], j ∈ p.placed := by
      refine forall₂_congr fun j hj => ?_
      have hja : j ≠ a := fun hja => hc (mem_callersOf.mpr (hja ▸ hj))
      simp [hja]
    rw [hsame, ← hold]
    simp only [List.mem_cons, hc, false_and, or_false]
    tauto

theorem unique_step (h : Sound cs p) {a : Nat} {rest : List Nat} (hq : p.queue = a :: rest) :
    ((p.step cs).queue ++ (p.step cs).placed).Nodup := by
  rw [queue_step hq, placed_step hq]
  have hu := h.unique
  rw [hq, List.cons_append] at hu
  have hperm : (rest ++ (callersOf cs a).filter (fun c => p.missing.getD c 0 ≤ 1) ++
      a :: p.placed).Perm ((a :: (rest ++ p.placed)) ++
        (callersOf cs a).filter fun c => p.missing.getD c 0 ≤ 1) := by
    grind
  rw [hperm.nodup_iff, List.nodup_append]
  refine ⟨hu, nodup_callersOf.filter _, ?_⟩
  rintro c hc d hd rfl
  have hnot := h.caller_not_ready hq (List.mem_filter.mp hd).1
  rw [hq] at hnot
  simp only [List.mem_cons, List.mem_append] at hc hnot
  tauto

/-- A step keeps what holds between steps. -/
theorem step (hcs : Proper cs) (h : Sound cs p) : Sound cs (p.step cs) := by
  cases hq : p.queue with
  | nil => rwa [step_of_queue_nil hq]
  | cons a rest =>
    have ha := h.head_notMem_placed hq
    refine ⟨fun i => ?_, fun i => ?_, h.unique_step hq, ?_⟩
    · rw [missing_step hq, placed_step hq, h.missing, unplaced_cons hcs ha]
      split <;> omega
    · rw [h.ready_step hcs hq, placed_step hq]
    · rw [placed_step hq]
      have hready := (h.ready a).mp (Or.inl (by rw [hq]; exact List.mem_cons_self))
      exact ⟨hready.2, h.ordered⟩

theorem run (hcs : Proper cs) (h : Sound cs p) (n : Nat) : Sound cs (p.run cs n) := by
  induction n generalizing p with
  | zero => exact h
  | succ n ih => exact ih (h.step hcs)

/-- The functions that wait and those placed are functions of the scope, each once. -/
theorem length_le (h : Sound cs p) : p.queue.length + p.placed.length ≤ cs.length := by
  have hsub : p.queue ++ p.placed ⊆ List.range cs.length := by
    intro i hi
    exact List.mem_range.mpr ((h.ready i).mp (List.mem_append.mp hi)).1
  simpa using h.unique.length_le_of_subset hsub

end Sound

/-! ## All steps -/

theorem run_of_queue_nil (hq : p.queue = []) (n : Nat) : p.run cs n = p := by
  induction n with
  | zero => rfl
  | succ n ih => rw [run, step_of_queue_nil hq, ih]

/-- Each step places a function as long as one waits. -/
theorem queue_run_or_placed_run (cs : List (List Nat)) (p : Progress) (n : Nat) :
    (p.run cs n).queue = [] ∨ (p.run cs n).placed.length = p.placed.length + n := by
  induction n generalizing p with
  | zero => exact Or.inr rfl
  | succ n ih =>
    cases hq : p.queue with
    | nil => exact Or.inl (by rw [run_of_queue_nil hq, hq])
    | cons a rest =>
      rcases ih (p.step cs) with hend | hlen
      · exact Or.inl hend
      · refine Or.inr ?_
        rw [run, hlen, placed_step hq, List.length_cons]
        omega

/-- After as many steps as there are functions, nothing waits. -/
theorem queue_run (hcs : Proper cs) : ((start cs).run cs cs.length).queue = [] := by
  have hle := ((Sound.start cs).run hcs cs.length).length_le
  rcases queue_run_or_placed_run cs (start cs) cs.length with hend | hlen
  · exact hend
  · rw [hlen] at hle
    exact List.length_eq_zero_iff.mp (by simp only [start, List.length_nil] at hle ⊢; omega)

end Progress

end SourceFacts.CallOrder
