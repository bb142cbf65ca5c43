/-!
# Syntax trees

A concrete syntax tree is a rose tree of labelled nodes. A label says what the node is
(`kind`), whether the grammar gives it a name or it stands for its own text (`named`), the
role it plays in its parent (`role`), and the stretch of source it covers (`span`).

Offsets count characters of the source text; rows count from zero.
-/

namespace SourceFacts.Syntax

/-- A stretch of source text, from `start` up to but not including `stop`. -/
structure Span where
  start : Nat
  stop : Nat
  firstRow : Nat
  lastRow : Nat
deriving Repr, BEq, DecidableEq, Inhabited

namespace Span

/-- The least span that holds both; `a` is taken to begin no later than `b`. -/
def through (a b : Span) : Span :=
  { start := a.start, stop := b.stop, firstRow := a.firstRow, lastRow := b.lastRow }

/-- The first line of the span, counted from one. -/
def firstLine (s : Span) : Nat := s.firstRow + 1

/-- The last line of the span, counted from one. -/
def lastLine (s : Span) : Nat := s.lastRow + 1

end Span

/-- A node of a syntax tree. -/
structure Node where
  kind : String
  named : Bool
  role : Option String
  span : Span
  children : List Node
deriving Repr, Inhabited

namespace Node

/-- The children that the grammar names. -/
def namedChildren (n : Node) : List Node := n.children.filter (·.named)

/-- The first child in the given role. -/
def child? (n : Node) (role : String) : Option Node :=
  n.children.find? fun c => c.role == some role

/-- All children in the given role, in source order. -/
def childrenIn (n : Node) (role : String) : List Node :=
  n.children.filter fun c => c.role == some role

/-- The node seen in another role. -/
def withRole (n : Node) (role : String) : Node := { n with role := some role }

mutual

/-- How many nodes the tree has. -/
def size : Node → Nat
  | ⟨_, _, _, _, children⟩ => 1 + forestSize children

/-- How many nodes the trees of a forest have together. -/
def forestSize : List Node → Nat
  | [] => 0
  | n :: rest => n.size + forestSize rest

end

end Node

/-- A node together with the way to it: its ancestors, nearest first, each with the place
among that ancestor's children at which the way goes on. -/
structure Place where
  node : Node
  above : List (Node × Nat)
deriving Inhabited

namespace Place

/-- The place of a whole tree. -/
def root (n : Node) : Place := ⟨n, []⟩

/-- The parent, unless the place is a root. -/
def parent? (p : Place) : Option Place :=
  match p.above with
  | [] => none
  | (n, _) :: rest => some ⟨n, rest⟩

/-- The places of the children, in source order. -/
def children (p : Place) : List Place :=
  p.node.children.mapIdx fun i c => ⟨c, (p.node, i) :: p.above⟩

/-- The places of the named children, in source order. -/
def namedChildren (p : Place) : List Place :=
  p.children.filter (·.node.named)

/-- The named siblings that follow, in source order. -/
def followingNamed (p : Place) : List Place :=
  match p.above with
  | [] => []
  | (n, i) :: rest =>
    (Place.children ⟨n, rest⟩).drop (i + 1) |>.filter (·.node.named)

/-- The way from the root, as positions among children, nearest first. Two places of one
tree are the same exactly when their ways are. -/
def way (p : Place) : List Nat := p.above.map (·.2)

/-- The ancestors, nearest first. -/
def ancestors (p : Place) : List Node := p.above.map (·.1)

end Place

end SourceFacts.Syntax
