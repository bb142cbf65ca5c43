import SourceFacts.Proofs.CallOrder.Turns
import Mathlib.Data.Nat.SuccPred

/-!
# Layers

How an order looks in which everybody has its turn. Functions without dependencies come first, as
they stand in the scope. The others come in the order of their latest callees, and those with the
same latest callee as they stand in the scope. Hence the depth of calls never decreases: under a
function there is no longer chain of dependencies than under a later one (`chainBelow_mono`).
-/

namespace SourceFacts.CallOrder

/-- Below the function at `i` there is a chain of so many dependencies. -/
inductive ChainBelow (scope : Scope) (functions : List FunctionOutline) : Nat → Nat → Prop
  | stop (i : Nat) : ChainBelow scope functions i 0
  | call {i j n : Nat} (edge : DependsOn scope functions i j)
      (rest : ChainBelow scope functions j n) : ChainBelow scope functions i (n + 1)

/-- The longest chain of dependencies below the function at `i` has this length. -/
def HasCallDepth (scope : Scope) (functions : List FunctionOutline) (i depth : Nat) : Prop :=
  IsGreatest {n | ChainBelow scope functions i n} depth

/-- Of the functions that the one at `i` depends on, the one at `a` comes last in the order. -/
def IsLatestCallee (scope : Scope) (functions : List FunctionOutline) (order : List Nat)
    (i a : Nat) : Prop :=
  DependsOn scope functions i a ∧
    ∀ b, DependsOn scope functions i b → order.idxOf b ≤ order.idxOf a

/-- How an order goes through a scope, layer by layer. -/
structure Layered (scope : Scope) (functions : List FunctionOutline) (order : List Nat) :
    Prop where
  exists_depth : ∀ i < functions.length, ∃ depth, HasCallDepth scope functions i depth
  /-- The depth of calls never decreases. -/
  depth_mono : order.Pairwise fun i j => ∀ d e, HasCallDepth scope functions i d →
    HasCallDepth scope functions j e → d ≤ e
  /-- The functions without dependencies come first, as they stand in the scope. -/
  free_first : ∃ free, free <+: order ∧ free.Pairwise (· < ·) ∧
    ∀ i, i ∈ free ↔ i < functions.length ∧ ∀ j, ¬ DependsOn scope functions i j
  exists_latest : ∀ i j, DependsOn scope functions i j →
    ∃ a, IsLatestCallee scope functions order i a
  /-- Functions with dependencies come in the order of their latest callees, and those with the
  same latest callee as they stand in the scope. -/
  by_latest : ∀ i j a b, IsLatestCallee scope functions order i a →
    IsLatestCallee scope functions order j b →
    (order.idxOf i < order.idxOf j ↔ order.idxOf a < order.idxOf b ∨ a = b ∧ i < j)

variable {scope : Scope} {functions : List FunctionOutline} {order : List Nat}

theorem idxOf_lt_releasedAt_of_dependsOn (order : List Nat) {i j : Nat}
    (hd : DependsOn scope functions i j) :
    order.idxOf j < releasedAt (callees scope functions) order i :=
  idxOf_lt_releasedAt (mem_callees_iff.mpr hd)

/-! ## Depth -/

theorem chainBelow_le_idxOf (h : InTurn (callees scope functions) order) {i n : Nat}
    (hchain : ChainBelow scope functions i n) : n ≤ order.idxOf i := by
  induction hchain with
  | stop i => exact Nat.zero_le _
  | call edge _ ih =>
    have hlt := h.idxOf_lt_of_dependsOn edge
    omega

/-- Every chain below a function has its like below a later one. The later function has a callee
that comes no earlier than the next function of the chain. -/
theorem chainBelow_mono (h : InTurn (callees scope functions) order) {i j n : Nat}
    (hj : j ∈ order) (hle : order.idxOf i ≤ order.idxOf j)
    (hchain : ChainBelow scope functions i n) : ChainBelow scope functions j n := by
  induction hchain generalizing j with
  | stop i => exact .stop j
  | @call i a n edge _ ih =>
    have hi := (h.mem_of_dependsOn edge).1
    have hafter : order.idxOf a < releasedAt (callees scope functions) order j :=
      (idxOf_lt_releasedAt_of_dependsOn order edge).trans_le (h.releasedAt_mono hi hj hle)
    obtain ⟨b, hb, hab⟩ := exists_callee_of_lt_releasedAt hafter
    have hcall := mem_callees_iff.mp hb
    exact .call hcall (ih (h.mem_of_dependsOn hcall).2 hab)

theorem exists_hasCallDepth (h : InTurn (callees scope functions) order) (i : Nat) :
    ∃ depth, HasCallDepth scope functions i depth := by
  -- a chain goes down the order, so it is no longer than what stands before the function
  have hbounded : BddAbove {n | ChainBelow scope functions i n} :=
    ⟨order.idxOf i, fun n hn => chainBelow_le_idxOf h hn⟩
  exact hbounded.exists_isGreatest_of_nonempty ⟨0, .stop i⟩

/-! ## The latest callee -/

theorem exists_isLatestCallee (order : List Nat) {i j : Nat}
    (hd : DependsOn scope functions i j) : ∃ a, IsLatestCallee scope functions order i a := by
  -- the function is not released one place earlier, so a callee stands there
  have hpos := idxOf_lt_releasedAt_of_dependsOn order hd
  have hlast : releasedAt (callees scope functions) order i - 1 <
      releasedAt (callees scope functions) order i := by
    omega
  obtain ⟨a, ha, hlatest⟩ := exists_callee_of_lt_releasedAt hlast
  refine ⟨a, mem_callees_iff.mp ha, fun b hb => ?_⟩
  have hlt := idxOf_lt_releasedAt_of_dependsOn order hb
  omega

/-- A function is released with its latest callee. -/
theorem releasedAt_of_isLatestCallee {i a : Nat}
    (h : IsLatestCallee scope functions order i a) :
    releasedAt (callees scope functions) order i = order.idxOf a + 1 := by
  obtain ⟨hd, hlatest⟩ := h
  apply le_antisymm
  · rw [releasedAt_le_iff]
    intro b hb
    exact Nat.lt_succ_of_le (hlatest b (mem_callees_iff.mp hb))
  · exact idxOf_lt_releasedAt_of_dependsOn order hd

/-! ## The order found -/

/-- The functions without dependencies come first, as they stand in the scope. -/
theorem exists_free_prefix (h : dependencyOrder? scope functions = some order) :
    ∃ free, free <+: order ∧ free.Pairwise (· < ·) ∧
      ∀ i, i ∈ free ↔ i < functions.length ∧ ∀ j, ¬ DependsOn scope functions i j := by
  refine ⟨(Progress.start (callees scope functions)).queue, ?_, ?_, ?_⟩
  · have hrun := Progress.line_prefix_run (callees scope functions)
      (Progress.start (callees scope functions)) (callees scope functions).length
    rwa [Progress.line_run_of_eq_some h] at hrun
  · exact List.pairwise_lt_range.filter _
  · intro i
    have hready := (Progress.Sound.start (callees scope functions)).ready i
    rw [length_callees] at hready
    simpa only [mem_callees_iff, Progress.start, List.not_mem_nil, or_false] using hready

/-- **Layers.** The order found goes through the scope layer by layer. -/
theorem dependencyOrder?_layered (h : dependencyOrder? scope functions = some order) :
    Layered scope functions order := by
  have hturn := inTurn_of_eq_some h
  refine ⟨fun i _ => exists_hasCallDepth hturn i, ?_, exists_free_prefix h,
    fun i j => exists_isLatestCallee order, ?_⟩
  · apply hturn.sorted.imp_of_mem
    intro i j hi hj hij d e hd he
    have hle := ((hturn.idxOf_lt_iff hi hj).mpr hij).le
    exact he.2 (chainBelow_mono hturn hj hle hd.1)
  · intro i j a b ha hb
    obtain ⟨hi, hamem⟩ := hturn.mem_of_dependsOn ha.1
    obtain ⟨hj, -⟩ := hturn.mem_of_dependsOn hb.1
    rw [hturn.idxOf_lt_iff hi hj, Precedes, releasedAt_of_isLatestCallee ha,
      releasedAt_of_isLatestCallee hb, Nat.add_lt_add_iff_right, Nat.add_right_cancel_iff,
      List.idxOf_inj hamem]

/-- Two functions without calls, two with the same latest callee, and one above all of them. -/
theorem dependencyOrder?_layered_diamond :
    let call := fun name => (⟨none, name, 1⟩ : CallRef)
    let functions : List FunctionOutline := [
      .named "top" [call "left", call "leaf", call "right"],
      .named "left" [call "base"], .named "right" [call "base", call "leaf"],
      .named "leaf" [], .named "base" []]
    dependencyOrder? .functions functions = some [3, 4, 1, 2, 0] ∧
      Layered .functions functions [3, 4, 1, 2, 0] :=
  ⟨rfl, dependencyOrder?_layered rfl⟩

end SourceFacts.CallOrder
