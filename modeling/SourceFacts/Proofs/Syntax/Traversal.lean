import Mathlib.Logic.Function.Iterate
import SourceFacts.Proofs.Syntax.Places
import SourceFacts.Syntax.Traversal

/-!
# What a traversal visits

A traversal visits a node before those below it, and goes on from left to right: that is the
recursion `Traversal.visited`. What holds between any two passes is said of the whole stack. The
nodes that will be visited from now on are those that the recursion gives for the nodes on it, one
after the other (`Traversal.pending`), and a pass takes the first of them (`pending_pass`). So the
stack is empty after one pass for each node that is visited, and no node is visited twice
(`iterate_pass`, `length_visited_le`).

The nodes visited are those at the places of the tree that are reached from the root, in source
order (`visited_eq`).
-/

namespace SourceFacts.Syntax.Traversal

variable {σ : Type} (r : Traversal σ)

/-! ## The recursion -/

mutual

/-- The nodes of a tree that are visited. -/
def visited : Node → List Node
  | ⟨kind, named, role, span, children⟩ =>
    let n : Node := ⟨kind, named, role, span, children⟩
    n :: visitedAmong n children

/-- The nodes that are visited in some trees below a node. -/
def visitedAmong (parent : Node) : List Node → List Node
  | [] => []
  | n :: rest =>
    if n.named && r.enters parent n then visited n ++ visitedAmong parent rest
    else visitedAmong parent rest

end

theorem visitedAmong_eq_flatMap (parent : Node) (ns : List Node) :
    r.visitedAmong parent ns =
      ((ns.filter (·.named)).filter (r.enters parent)).flatMap r.visited := by
  induction ns with
  | nil => rw [visitedAmong, List.filter_nil, List.filter_nil, List.flatMap_nil]
  | cons n rest ih =>
    rw [visitedAmong, ih, List.filter_filter, List.filter_filter, List.filter_cons,
      Bool.and_comm n.named]
    split
    · rw [List.flatMap_cons]
    · rfl

theorem visited_cons (n : Node) : r.visited n = n :: (r.entered n).flatMap r.visited := by
  have hbelow := r.visitedAmong_eq_flatMap n n.children
  obtain ⟨kind, named, role, span, children⟩ := n
  rw [visited, hbelow]
  rfl

mutual

theorem length_visited_le : (n : Node) → (r.visited n).length ≤ n.size
  | ⟨kind, named, role, span, children⟩ => by
    have hbelow := length_visitedAmong_le ⟨kind, named, role, span, children⟩ children
    rw [visited, Node.size, List.length_cons]
    omega

theorem length_visitedAmong_le (parent : Node) : (ns : List Node) →
    (r.visitedAmong parent ns).length ≤ Node.forestSize ns
  | [] => by
    rw [visitedAmong]
    exact Nat.zero_le _
  | n :: rest => by
    have hfirst := length_visited_le n
    have hrest := length_visitedAmong_le parent rest
    rw [visitedAmong, Node.forestSize]
    split
    · rw [List.length_append]
      omega
    · omega

end

/-! ## Passes -/

/-- The nodes that are yet to be visited, in order. -/
def pending (w : State σ) : List Node := w.stack.flatMap r.visited

variable {r}

/-- A pass visits the first of the nodes that are pending, and leaves the others. -/
theorem pending_pass {n : Node} {rest : List Node} {s : σ} :
    r.pending ⟨n :: rest, s⟩ = n :: r.pending (r.pass ⟨n :: rest, s⟩) := by
  rw [pass_cons, pending, pending, List.flatMap_cons, List.flatMap_append, visited_cons,
    List.cons_append]

theorem stack_eq_nil_of_pending {w : State σ} (h : r.pending w = []) : w.stack = [] := by
  obtain ⟨stack, s⟩ := w
  cases stack with
  | nil => rfl
  | cons n rest =>
    rw [pending_pass] at h
    cases h

/-- After one pass for each node that is pending the stack is empty. -/
theorem iterate_pass (w : State σ) :
    r.pass^[(r.pending w).length] w = ⟨[], (r.pending w).foldl r.visit w.value⟩ := by
  generalize hcount : (r.pending w).length = count
  induction count generalizing w with
  | zero =>
    have hnone : r.pending w = [] := List.length_eq_zero_iff.mp hcount
    have hstack := stack_eq_nil_of_pending hnone
    obtain ⟨stack, s⟩ := w
    subst hstack
    rw [hnone, Function.iterate_zero_apply, List.foldl_nil]
  | succ count ih =>
    obtain ⟨stack, s⟩ := w
    cases stack with
    | nil => cases hcount
    | cons n rest =>
      have hstep : r.pending ⟨n :: rest, s⟩ = n :: r.pending (r.pass ⟨n :: rest, s⟩) :=
        pending_pass
      have hleft : (r.pending (r.pass ⟨n :: rest, s⟩)).length = count := by
        rw [hstep, List.length_cons] at hcount
        exact Nat.succ.inj hcount
      rw [Function.iterate_succ_apply, ih _ hleft, hstep, List.foldl_cons, pass_cons]

theorem run_pass (w : State σ) : r.run (r.pass w) = r.run w := by
  by_cases hstack : w.stack = []
  · have hsame : r.pass w = w := by rw [pass, hstack]
    rw [hsame]
  · rw [run.eq_def r w, if_neg hstack]

theorem run_iterate (k : Nat) (w : State σ) : r.run (r.pass^[k] w) = r.run w := by
  induction k generalizing w with
  | zero => rfl
  | succ k ih => rw [Function.iterate_succ_apply, ih, run_pass]

theorem pending_root (root : Node) (s : σ) : r.pending ⟨[root], s⟩ = r.visited root := by
  rw [pending, List.flatMap_cons, List.flatMap_nil, List.append_nil]

/-- What comes of a traversal is what comes of visiting, one after the other, the nodes that the
recursion gives. -/
theorem through_eq_foldl (root : Node) (s : σ) :
    r.through root s = (r.visited root).foldl r.visit s := by
  rw [through, ← run_iterate (r.pending ⟨[root], s⟩).length, iterate_pass, pending_root, run]
  exact if_pos rfl

/-- A traversal comes to its end, and takes no more passes than there are nodes. -/
theorem exists_passes (root : Node) (s : σ) :
    ∃ passes ≤ root.size, r.pass^[passes] ⟨[root], s⟩ = ⟨[], r.through root s⟩ := by
  have hend := iterate_pass (r := r) ⟨[root], s⟩
  rw [pending_root, ← through_eq_foldl] at hend
  exact ⟨_, r.length_visited_le root, hend⟩

/-! ## Places -/

variable (r)

/-- Whether a node is reached from the end of a way: it is entered from its parent, and so is
what is above it. The end itself need not be named. -/
def reachesFrom : Node → List (Node × Nat) → Bool
  | _, [] => true
  | n, (parent, _) :: above => n.named && r.enters parent n && reachesFrom parent above

/-- Whether a place is reached from the root. -/
def reaches (p : Place) : Bool := r.reachesFrom p.node p.above

mutual

theorem filter_placesFrom (above : List (Node × Nat)) : (n : Node) →
    ((n.placesFrom above).filter r.reaches).map (·.node) =
      if r.reachesFrom n above then r.visited n else []
  | ⟨kind, named, role, span, children⟩ => by
    have hbelow := filter_placesOfAll ⟨kind, named, role, span, children⟩ above 0 children
    rw [Node.placesFrom_eq, List.filter_cons, visited]
    by_cases hreached : r.reachesFrom ⟨kind, named, role, span, children⟩ above = true
    · rw [if_pos hreached] at hbelow
      rw [if_pos (by exact hreached), if_pos hreached, List.map_cons, hbelow]
    · rw [if_neg hreached] at hbelow
      rw [if_neg (by exact hreached), if_neg hreached, hbelow]

theorem filter_placesOfAll (parent : Node) (above : List (Node × Nat)) (i : Nat) :
    (ns : List Node) → ((Node.placesOfAll parent above i ns).filter r.reaches).map (·.node) =
      if r.reachesFrom parent above then r.visitedAmong parent ns else []
  | [] => by simp [Node.placesOfAll, visitedAmong]
  | n :: rest => by
    have hfirst := filter_placesFrom ((parent, i) :: above) n
    have hrest := filter_placesOfAll parent above (i + 1) rest
    rw [reachesFrom] at hfirst
    rw [Node.placesOfAll, List.filter_append, List.map_append, hfirst, hrest, visitedAmong]
    cases r.reachesFrom parent above
    · simp
    · cases n.named && r.enters parent n <;> simp

end

/-- A traversal visits the nodes at the places that are reached, in source order. -/
theorem visited_eq (root : Node) :
    r.visited root = (root.places.filter r.reaches).map (·.node) := by
  rw [Node.places, filter_placesFrom]
  exact (if_pos rfl).symm

end SourceFacts.Syntax.Traversal
