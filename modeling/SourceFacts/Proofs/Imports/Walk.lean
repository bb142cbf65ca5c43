import SourceFacts.Proofs.Syntax.Traversal
import SourceFacts.SourceContext

/-!
# The walk that records imports

The imports of a tree are given by a recursion: those of an import statement and nothing below it,
and otherwise those of the named children, from left to right (`Imports.inTree`). The walk comes to
an end on every tree, and records these and no others, one after the other and in this order,
whatever an import is and whatever recording does (`Imports.walk_records_inTree`).
-/

namespace SourceFacts.Imports

open Syntax (Node SourceText Traversal)

variable {σ : Type} (importOf? : Node → Option (List ImportBinding))
  (record : σ → ImportBinding → σ)

/-! ## The recursion -/

mutual

/-- The imports in a tree, in source order. Nothing is looked for inside an import. -/
def inTree : Node → List ImportBinding
  | ⟨kind, named, role, span, children⟩ =>
    match importOf? ⟨kind, named, role, span, children⟩ with
    | some found => found
    | none => inForest children

/-- The imports in the named trees of a forest. -/
def inForest : List Node → List ImportBinding
  | [] => []
  | n :: rest => if n.named then inTree n ++ inForest rest else inForest rest

end

theorem inForest_eq_flatMap (ns : List Node) :
    inForest importOf? ns = (ns.filter (·.named)).flatMap (inTree importOf?) := by
  induction ns with
  | nil => rw [inForest, List.filter_nil, List.flatMap_nil]
  | cons n rest ih =>
    rw [inForest, ih, List.filter_cons]
    split
    · rw [List.flatMap_cons]
    · rfl

theorem inTree_eq (n : Node) :
    inTree importOf? n =
      match importOf? n with
      | some found => found
      | none => n.namedChildren.flatMap (inTree importOf?) := by
  have hbelow := inForest_eq_flatMap importOf? n.children
  obtain ⟨kind, named, role, span, children⟩ := n
  rw [inTree, hbelow]
  rfl

/-! ## The walk -/

/-- The imports that a node stands for itself. -/
def importsOf (n : Node) : List ImportBinding := (importOf? n).getD []

theorem foldl_visit (ns : List Node) (s : σ) :
    ns.foldl (walk importOf? record).visit s =
      (ns.flatMap (importsOf importOf?)).foldl record s := by
  induction ns generalizing s with
  | nil => rfl
  | cons n rest ih =>
    have hvisit : (walk importOf? record).visit s n = (importsOf importOf? n).foldl record s := by
      simp only [walk, importsOf]
      cases importOf? n <;> rfl
    rw [List.foldl_cons, List.flatMap_cons, List.foldl_append, ih, hvisit]

mutual

/-- The imports of a tree are those of the nodes that the walk visits. -/
theorem inTree_eq_visited : (n : Node) → inTree importOf? n =
    ((walk importOf? record).visited n).flatMap (importsOf importOf?)
  | ⟨kind, named, role, span, children⟩ => by
    have hbelow := inForest_eq_visited ⟨kind, named, role, span, children⟩ children
    rw [inTree, Traversal.visited, List.flatMap_cons, hbelow, importsOf]
    cases importOf? ⟨kind, named, role, span, children⟩ with
    | none => rfl
    | some found => simp

/-- Below an import the walk visits nothing; elsewhere it goes on with the named children. -/
theorem inForest_eq_visited (parent : Node) : (ns : List Node) →
    ((walk importOf? record).visitedAmong parent ns).flatMap (importsOf importOf?) =
      if (importOf? parent).isNone then inForest importOf? ns else []
  | [] => by simp [Traversal.visitedAmong, inForest]
  | n :: rest => by
    have hfirst := inTree_eq_visited n
    have hrest := inForest_eq_visited parent rest
    rw [Traversal.visitedAmong, inForest]
    have henters : (walk importOf? record).enters parent n = (importOf? parent).isNone := rfl
    rw [henters]
    cases hnamed : n.named with
    | false =>
      rw [Bool.false_and, if_neg Bool.false_ne_true, if_neg Bool.false_ne_true, hrest]
    | true =>
      rw [Bool.true_and, if_pos rfl]
      split at hrest
      case isTrue hnone => rw [if_pos hnone, if_pos hnone, List.flatMap_append, hrest, hfirst]
      case isFalse hsome => rw [if_neg hsome, if_neg hsome, hrest]

end

/-- **The walk that records imports.** Whatever is taken for an import and whatever is done to
record a binding, the walk ends on every tree, after at most as many passes as there are nodes. It
has then recorded what the recursion gives, binding by binding in this order: of an import its own
bindings and nothing below it, of another node those of its named children from left to right. -/
theorem walk_records_inTree (root : Node) (s : σ) :
    (∃ passes ≤ root.size, (walk importOf? record).pass^[passes] ⟨[root], s⟩ =
        ⟨[], (walk importOf? record).through root s⟩) ∧
      (walk importOf? record).through root s = (inTree importOf? root).foldl record s ∧
      ∀ n, inTree importOf? n =
        match importOf? n with
        | some found => found
        | none => n.namedChildren.flatMap (inTree importOf?) := by
  refine ⟨Traversal.exists_passes root s, ?_, inTree_eq importOf?⟩
  rw [Traversal.through_eq_foldl, foldl_visit, inTree_eq_visited importOf? record]

end SourceFacts.Imports
