import SourceFacts.Syntax.Node
import SourceFacts.Regex.Basic

/-!
# Tree queries

A query is a list of patterns over syntax trees. Each pattern is laid out as a run of steps in
the order in which a walk of the tree meets what they describe; a step says how deep below the
start of the pattern its node lies. Choice and repetition are jumps between steps.

A pattern also has predicates, which look at the text of what it captured.
-/

namespace SourceFacts.Query

/-- What a step asks of a node. -/
inductive Target where
  /-- Any node; `named` leaves out those that stand for their own text. -/
  | any (named : Bool)
  /-- A node of this kind. -/
  | kind (name : String) (named : Bool)
  /-- A node of one of these kinds. -/
  | oneOf (kinds : List String)
  /-- No node at all. -/
  | never
deriving Repr, BEq, Inhabited

/-- Whether the target leaves the kind open, so that any node may start a match. -/
def Target.isOpen : Target → Bool
  | .any _ | .oneOf _ => true
  | .kind _ _ | .never => false

/-- Whether a node is of the kind asked for. -/
def Target.accepts (t : Target) (n : Syntax.Node) : Bool :=
  match t with
  | .any named => n.named || !named
  | .kind name named => n.kind == name && n.named == named
  | .oneOf kinds => n.named && kinds.contains n.kind
  | .never => false

/-- One step of a pattern. -/
structure Step where
  target : Target
  /-- How deep the node lies, or `none` past the end of a pattern. -/
  depth : Option Nat
  role : Option String
  /-- Roles that no child of the node may play. -/
  absent : List String
  captures : List Nat
  /-- Another step at which the pattern may go on instead. -/
  alternative : Option Nat
  /-- The node follows its predecessor with no named node between. -/
  immediate : Bool
  /-- No named sibling follows the node. -/
  lastChild : Bool
  /-- The step only offers its alternative, and else passes on. -/
  passThrough : Bool
  /-- The step only jumps to its alternative. -/
  deadEnd : Bool
  /-- The alternative has to follow immediately. -/
  alternativeImmediate : Bool
  /-- Another node in this place may lead to another match. -/
  splits : Bool
deriving Repr, Inhabited

/-- A step with nothing asked beyond its target and depth. -/
def Step.plain (target : Target) (depth : Option Nat) (immediate : Bool) : Step :=
  { target, depth, role := none, absent := [], captures := [], alternative := none, immediate,
    lastChild := false, passThrough := false, deadEnd := false, alternativeImmediate := false,
    splits := false }

/-- What a captured text is compared with. -/
inductive Operand where
  | capture (index : Nat)
  | text (s : String)
deriving Repr, Inhabited

/-- A condition on the texts of captured nodes. -/
inductive Predicate where
  /-- Equal, or not, to the other; for every captured node, or for one at least. -/
  | equal (positive every : Bool) (capture : Nat) (other : Operand)
  /-- Matched, or not, by the regular expression. -/
  | matched (positive every : Bool) (capture : Nat) (regex : Regex)
  /-- Among the given texts, or not. -/
  | among (positive : Bool) (capture : Nat) (choices : List String)
  /-- A remark that decides nothing. -/
  | remark
deriving Inhabited

/-- A place at which a pattern may start. -/
structure Entry where
  step : Nat
  pattern : Nat
deriving Repr, Inhabited

end SourceFacts.Query

namespace SourceFacts

/-- A compiled query. -/
structure Query where
  steps : Array Query.Step
  entries : List Query.Entry
  predicates : Array (List Query.Predicate)
  captureNames : Array String
deriving Inhabited

namespace Query

/-- The number of the capture with the given name. -/
def captureIndex? (q : Query) (name : String) : Option Nat :=
  q.captureNames.findIdx? (· == name)

/-- A capture: its number, and the node it holds. -/
structure Capture where
  index : Nat
  place : Syntax.Place
deriving Inhabited

/-- One way in which a pattern fits a tree. -/
structure Match where
  pattern : Nat
  captures : List Capture
deriving Inhabited

/-- The first node captured under a number. -/
def Match.place? (m : Match) (index : Option Nat) : Option Syntax.Place :=
  match index with
  | none => none
  | some i => (m.captures.find? (·.index == i)).map (·.place)

end Query

end SourceFacts
