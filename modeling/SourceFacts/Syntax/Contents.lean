import Std.Data.HashMap
import Std.Data.HashSet
import SourceFacts.Syntax.Grammar

/-!
# What nodes may contain

Which children the nodes of each kind may have, and in which roles, read off the rules of a
grammar. A rule that only refers to another leaves the nodes of that one to its surroundings,
so the nodes of named rules are collected until nothing new turns up.
-/

namespace SourceFacts.Syntax

/-- A child that some node may have. -/
structure Part where
  role : Option String
  kind : String
  named : Bool
deriving Repr, BEq, DecidableEq, Hashable, Inhabited

/-- Children that nodes may have. -/
abbrev Parts := Std.HashSet Part

namespace Parts

/-- The parts of either. -/
def both (a b : Parts) : Parts := a.insertMany b.toList

/-- The parts in another role. -/
def withRole (role : String) (ps : Parts) : Parts :=
  .ofList (ps.toList.map fun p => { p with role := some role })

/-- A single part without a role. -/
def single (kind : String) (named : Bool) : Parts := .ofList [⟨none, kind, named⟩]

end Parts

/-- The nodes that named rules leave to their surroundings. -/
abbrev Exposure := Std.HashMap String Parts

namespace Rule

variable {τ : Type}

/-- The nodes that a rule leaves to its surroundings. -/
def exposed (ofTerm : τ → List (String × Bool)) (known : Exposure) : Rule τ → Parts
  | .empty | .ahead _ | .unless _ => ∅
  | .term t => .ofList ((ofTerm t).map fun (kind, named) => ⟨none, kind, named⟩)
  | .ref name => known.getD name ∅
  | .seq a b | .alt a b | .grow a b =>
    (a.exposed ofTerm known).both (b.exposed ofTerm known)
  | .star r => r.exposed ofTerm known
  | .role name r => (r.exposed ofTerm known).withRole name
  | .node kind _ | .wrap kind _ _ => .single kind true
  | .phrase text _ => .single text false

/-- The children of the nodes that a rule makes, by kind; `left` is what stands before a step. -/
def contents (ofTerm : τ → List (String × Bool)) (known : Exposure) (left : Parts) :
    Rule τ → List (String × Parts)
  | .empty | .ahead _ | .unless _ | .term _ | .ref _ | .phrase _ _ => []
  | .seq a b | .alt a b => a.contents ofTerm known left ++ b.contents ofTerm known left
  | .star r | .role _ r => r.contents ofTerm known left
  | .node kind r => (kind, r.exposed ofTerm known) :: r.contents ofTerm known left
  | .wrap kind name r =>
    let before := name.elim left (Parts.withRole · left)
    (kind, before.both (r.exposed ofTerm known)) :: r.contents ofTerm known left
  | .grow seed step =>
    let before := (seed.exposed ofTerm known).both (step.exposed ofTerm known)
    seed.contents ofTerm known left ++ step.contents ofTerm known before

end Rule

namespace Exposure

/-- How many nodes are known. -/
def size (e : Exposure) : Nat := e.fold (fun n _ ps => n + ps.size) 0

/-- Collects the nodes of every rule once more. -/
def round {τ : Type} (ofTerm : τ → List (String × Bool)) (rules : List (String × Rule τ))
    (e : Exposure) : Exposure :=
  rules.foldr (fun (name, r) e => e.insert name (r.exposed ofTerm e)) e

/-- Collects the nodes of all rules until nothing new turns up. -/
def settle {τ : Type} (ofTerm : τ → List (String × Bool)) (rules : List (String × Rule τ)) :
    (rounds : Nat) → Exposure → Exposure
  | 0, e => e
  | rounds + 1, e =>
    let next := round ofTerm rules e
    if next.size = e.size then e else settle ofTerm rules rounds next

end Exposure

/-- The children that nodes may have, by kind. Kinds without any are missing. -/
def contentsOf {τ : Type} (ofTerm : τ → List (String × Bool)) (rules : List (String × Rule τ)) :
    Std.HashMap String Parts :=
  let known := Exposure.settle ofTerm rules rules.length ∅
  (rules.flatMap fun (_, r) => r.contents ofTerm known ∅).foldl
    (fun m (kind, ps) => m.insert kind ((m.getD kind ∅).both ps)) ∅

end SourceFacts.Syntax
