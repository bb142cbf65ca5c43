import SourceFacts.Syntax.Node

/-!
# Traversals

A traversal goes through a tree with a stack of nodes that are yet to be visited. Each pass visits
the node on top and puts those of its named children on the stack that are entered from it, the
last one first, so that they come next in source order. Every pass leaves fewer nodes at and below
those on the stack.
-/

namespace SourceFacts.Syntax

namespace Node

theorem size_eq (n : Node) : n.size = 1 + forestSize n.children := by
  obtain ⟨kind, named, role, span, children⟩ := n
  rw [size]

theorem forestSize_append (ns ms : List Node) :
    forestSize (ns ++ ms) = forestSize ns + forestSize ms := by
  induction ns with
  | nil => rw [List.nil_append, forestSize, Nat.zero_add]
  | cons n rest ih => rw [List.cons_append, forestSize, forestSize, ih, Nat.add_assoc]

theorem forestSize_filter_le (test : Node → Bool) (ns : List Node) :
    forestSize (ns.filter test) ≤ forestSize ns := by
  induction ns with
  | nil => exact Nat.le_refl _
  | cons n rest ih =>
    rw [List.filter_cons, forestSize]
    split
    · rw [forestSize]
      omega
    · omega

end Node

/-- How a tree is gone through: what is done at a node, and which of its named children are
entered from it. -/
structure Traversal (σ : Type) where
  visit : σ → Node → σ
  enters : Node → Node → Bool

namespace Traversal

/-- Where a traversal stands: the nodes that are yet to be visited, the next one first, and what
has come of those visited. -/
structure State (σ : Type) where
  stack : List Node
  value : σ

/-- Puts nodes on a stack one after the other. -/
def push (stack ns : List Node) : List Node := ns.foldl (fun stack n => n :: stack) stack

variable {σ : Type}

/-- The children that are entered from a node, in source order. -/
def entered (r : Traversal σ) (n : Node) : List Node := n.namedChildren.filter (r.enters n)

/-- Visits the node on top of the stack. -/
def pass (r : Traversal σ) (w : State σ) : State σ :=
  match w.stack with
  | [] => w
  | n :: rest => { stack := push rest (r.entered n).reverse, value := r.visit w.value n }

theorem push_reverse (stack ns : List Node) : push stack ns.reverse = ns ++ stack := by
  rw [push, List.foldl_reverse]
  induction ns with
  | nil => rfl
  | cons n rest ih => rw [List.foldr_cons, ih, List.cons_append]

theorem pass_cons (r : Traversal σ) (n : Node) (rest : List Node) (s : σ) :
    r.pass ⟨n :: rest, s⟩ = ⟨r.entered n ++ rest, r.visit s n⟩ := by
  simp only [pass, push_reverse]

theorem forestSize_entered_lt (r : Traversal σ) (n : Node) :
    Node.forestSize (r.entered n) < n.size := by
  have hentered := Node.forestSize_filter_le (r.enters n) n.namedChildren
  have hnamed := Node.forestSize_filter_le (·.named) n.children
  rw [Node.size_eq, entered]
  unfold Node.namedChildren at hentered ⊢
  omega

theorem forestSize_pass_lt (r : Traversal σ) {w : State σ} (h : w.stack ≠ []) :
    Node.forestSize (r.pass w).stack < Node.forestSize w.stack := by
  obtain ⟨stack, s⟩ := w
  cases stack with
  | nil => exact absurd rfl h
  | cons n rest =>
    have hlt := r.forestSize_entered_lt n
    rw [pass_cons, Node.forestSize_append, Node.forestSize]
    omega

-- Semireducible, so that a traversal of a given tree can be evaluated in a proof.
/-- Visits nodes until the stack is empty. -/
@[semireducible] def run (r : Traversal σ) (w : State σ) : σ :=
  if w.stack = [] then w.value else r.run (r.pass w)
termination_by Node.forestSize w.stack
decreasing_by exact r.forestSize_pass_lt ‹_›

/-- What comes of going through a tree. -/
def through (r : Traversal σ) (root : Node) (s : σ) : σ := r.run ⟨[root], s⟩

end Traversal

end SourceFacts.Syntax
