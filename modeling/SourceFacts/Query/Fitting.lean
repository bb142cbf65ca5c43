import SourceFacts.Query.Pattern
import SourceFacts.Syntax.Vocabulary

/-!
# Patterns that can fit

A pattern that asks for children which the grammar never puts into such a node fits nowhere.
What may be missing rules nothing out, and comments may stand in any node that has children.
-/

namespace SourceFacts.Query

open Syntax (Vocabulary Part)

/-- Whether a child meets a target in a role, if one is asked for. -/
def Target.admits (t : Target) (role : Option String) (p : Part) : Bool :=
  (role.isNone || role == p.role) &&
    match t with
    | .any named => p.named || !named
    | .kind name named => p.kind == name && p.named == named
    | .oneOf kinds => p.named && kinds.contains p.kind
    | .never => true

namespace Pattern

mutual

/-- Whether one of the given parts, or what may stand anywhere, can meet a pattern. -/
def fits (extras : List String) (parts : List Part) (role : Option String) : Pattern → Bool
  | .node target _ _ _ =>
    parts.any (target.admits role) || extras.any fun kind => target.admits role ⟨none, kind, true⟩
  | .choice branches => anyFits extras parts role branches
  | .group members => allFit extras parts role members
  | .inRole name p => fits extras parts (some name) p
  | .captured _ p | .next p | .oneOrMore p => fits extras parts role p
  | .anyNumber _ | .perhaps _ => true

/-- Whether one of the patterns can be met. -/
def anyFits (extras : List String) (parts : List Part) (role : Option String) :
    List Pattern → Bool
  | [] => false
  | p :: rest => fits extras parts role p || anyFits extras parts role rest

/-- Whether all patterns can be met. -/
def allFit (extras : List String) (parts : List Part) (role : Option String) :
    List Pattern → Bool
  | [] => true
  | p :: rest => fits extras parts role p && allFit extras parts role rest

end

end Pattern

/-- Whether a node of the given target can have children that meet the patterns. -/
def canContain (v : Vocabulary) (target : Target) (children : List Pattern) : Bool :=
  match target with
  | .kind name true =>
    children.isEmpty || name == Syntax.errorKind ||
      (v.parts? name).any fun parts =>
        Pattern.allFit (Syntax.errorKind :: v.extras) parts none children
  | _ => true

end SourceFacts.Query
