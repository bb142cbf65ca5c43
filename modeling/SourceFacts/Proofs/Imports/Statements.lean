import SourceFacts.Proofs.Imports.Walk

/-!
# The import statements of a tree

The walk through a tree records bindings as it goes, and looks no further where it has found an
import. What it records are the bindings of the import statements of the tree, in source order
(`inTree_eq_bindingsIn`): of those places that can be read as an import and are reached through
named nodes that cannot.
-/

namespace SourceFacts.Imports

open Syntax (Node Place SourceText)

/-- How the import statements of a language are read. -/
def reader (l : Language) (t : SourceText) : Node → Option (List ImportBinding) :=
  match l.family with
  | .python => Python.importOf? t
  | .typescript => TypeScript.importOf? t

variable (importOf? : Node → Option (List ImportBinding))

/-- Whether a place is reached from the root through named nodes that are no imports. The root
need not be named. -/
def isReached (p : Place) : Bool :=
  (p.node :: p.ancestors).dropLast.all (·.named) &&
    p.ancestors.all fun n => (importOf? n).isNone

/-- Whether an import statement stands at a place. -/
def isStatement (p : Place) : Bool := (importOf? p.node).isSome && isReached importOf? p

/-- The bindings of the import statements among the given places. -/
def bindingsAt (ps : List Place) : List ImportBinding :=
  (ps.filter (isStatement importOf?)).flatMap fun p => (importOf? p.node).getD []

/-- The bindings of the import statements of a tree, in source order. -/
def bindingsIn (root : Node) : List ImportBinding := bindingsAt importOf? root.places

variable {importOf?} {σ : Type} {record : σ → ImportBinding → σ}

theorem isReached_child {n parent : Node} {above : List (Node × Nat)} {i : Nat} :
    isReached importOf? ⟨n, (parent, i) :: above⟩ =
      (n.named && ((importOf? parent).isNone && isReached importOf? ⟨parent, above⟩)) := by
  simp only [isReached, Place.ancestors, List.map_cons, List.dropLast_cons_cons, List.all_cons]
  ac_rfl

theorem reaches_walk (p : Place) :
    (walk importOf? record).reaches p = isReached importOf? p := by
  obtain ⟨n, above⟩ := p
  induction above generalizing n with
  | nil => rfl
  | cons a above ih =>
    obtain ⟨parent, i⟩ := a
    have hparent : (walk importOf? record).reachesFrom parent above =
        isReached importOf? ⟨parent, above⟩ := ih parent
    rw [isReached_child, Syntax.Traversal.reaches, Syntax.Traversal.reachesFrom, hparent,
      Bool.and_assoc]
    rfl

/-- Of the places that are reached, those that are no statements have no bindings. -/
theorem bindingsAt_eq (ps : List Place) :
    bindingsAt importOf? ps =
      (ps.filter (isReached importOf?)).flatMap fun p => importsOf importOf? p.node := by
  induction ps with
  | nil => rfl
  | cons p ps ih =>
    rw [bindingsAt] at ih ⊢
    rw [List.filter_cons, List.filter_cons, isStatement]
    cases hreached : isReached importOf? p with
    | false => simpa using ih
    | true =>
      cases himport : importOf? p.node with
      | none => simpa [importsOf, himport] using ih
      | some found => simpa [importsOf, himport] using ih

/-- The walk through a tree records the bindings of its import statements. -/
theorem inTree_eq_bindingsIn (root : Node) :
    inTree importOf? root = bindingsIn importOf? root := by
  have hreached : (walk importOf? Recorded.add).reaches = isReached importOf? :=
    funext reaches_walk
  rw [inTree_eq_visited importOf? Recorded.add, Syntax.Traversal.visited_eq, hreached,
    List.flatMap_map, bindingsIn, bindingsAt_eq]

end SourceFacts.Imports

namespace SourceFacts.SourceContext

open Syntax (Node SourceText)

/-- A context tells of the bindings of the import statements, recorded in source order. -/
theorem recorded_ofTree (l : Language) (t : SourceText) (root : Node) :
    (⟨(ofTree l t root).imports, (ofTree l t root).aliases⟩ : Imports.Recorded) =
      (Imports.bindingsIn (Imports.reader l t) root).foldl .add .empty := by
  have hwalk : (⟨(ofTree l t root).imports, (ofTree l t root).aliases⟩ : Imports.Recorded) =
      (Imports.walk (Imports.reader l t) .add).through root .empty := by
    cases l <;> rfl
  rw [hwalk, Syntax.Traversal.through_eq_foldl, Imports.foldl_visit,
    ← Imports.inTree_eq_visited, Imports.inTree_eq_bindingsIn]

end SourceFacts.SourceContext
