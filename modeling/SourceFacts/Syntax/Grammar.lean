import Std.Data.HashMap
import SourceFacts.Syntax.Node

/-!
# Grammars and how they are read

A grammar is a table of named rules. A rule describes, at once, which inputs it accepts and
which nodes it makes of them: `node` wraps what it read, `role` names the part that a node
plays, and anything else passes nodes through.

Alternatives are ordered: the first that succeeds is taken. Operators that stand after their
first operand are read by `grow`, which starts with a seed and wraps it again and again.

Comments are not part of any rule. A token carries the comments that precede it, and these
become children of the lowest node that has a token on either side of them.
-/

namespace SourceFacts.Syntax

/-- A rule over terminals `τ`. -/
inductive Rule (τ : Type) where
  /-- Accepts the empty input. -/
  | empty
  /-- Accepts one terminal. -/
  | term (t : τ)
  /-- Accepts what the named rule of the grammar accepts. -/
  | ref (name : String)
  /-- Accepts the one and then the other. -/
  | seq (a b : Rule τ)
  /-- Accepts the one or, should it fail, the other. -/
  | alt (a b : Rule τ)
  /-- Accepts as many as there are. -/
  | star (r : Rule τ)
  /-- Accepts nothing, provided that the rule would succeed. -/
  | ahead (r : Rule τ)
  /-- Accepts nothing, provided that the rule would fail. -/
  | unless (r : Rule τ)
  /-- Gives the nodes read a role. -/
  | role (name : String) (r : Rule τ)
  /-- Wraps the nodes read in a node. -/
  | node (kind : String) (r : Rule τ)
  /-- Wraps the tokens read in one that stands for them together. -/
  | phrase (text : String) (r : Rule τ)
  /-- Reads the seed, then any number of steps, each of which wraps what came before. -/
  | grow (seed step : Rule τ)
  /-- In a step: wraps what came before, in the given role, together with what it reads. -/
  | wrap (kind : String) (left : Option String) (r : Rule τ)
deriving Inhabited

namespace Rule

variable {τ : Type}

/-- One after the other. -/
def all : List (Rule τ) → Rule τ
  | [] => .empty
  | [r] => r
  | r :: rest => .seq r (all rest)

/-- The first that succeeds. -/
def any : List (Rule τ) → Rule τ
  | [] => .unless .empty
  | [r] => r
  | r :: rest => .alt r (any rest)

/-- Perhaps. -/
def opt (r : Rule τ) : Rule τ := .alt r .empty

/-- At least one. -/
def plus (r : Rule τ) : Rule τ := .seq r (.star r)

/-- At least one, with separators between. -/
def sepBy (separator r : Rule τ) : Rule τ := .seq r (.star (.seq separator r))

end Rule

/-- What a rule reads: a node, or something unseen that only widens its parent, with the
comments that stand before it. -/
structure Piece where
  lead : List Node
  body : Option Node
  span : Span
deriving Inhabited

namespace Piece

/-- The piece of a single node. -/
def ofNode (lead : List Node) (n : Node) : Piece := ⟨lead, some n, n.span⟩

/-- The comments and nodes of pieces, in source order. -/
def nodes : List Piece → List Node
  | [] => []
  | p :: rest => p.lead ++ p.body.toList ++ nodes rest

/-- Wraps pieces in a node. Comments before the first piece stay outside. -/
def wrap (kind : String) : List Piece → List Piece
  | [] => []
  | p :: rest =>
    let last := rest.getLastD p
    let span := p.span.through last.span
    [⟨p.lead, some ⟨kind, true, none, span, p.body.toList ++ nodes rest⟩, span⟩]

/-- Wraps pieces in a node that the grammar does not name. -/
def phrase (text : String) (ps : List Piece) : List Piece :=
  (wrap text ps).map fun p => { p with body := p.body.map fun n => { n with named := false } }

/-- Gives the nodes of pieces a role. -/
def withRole (role : String) (ps : List Piece) : List Piece :=
  ps.map fun p => { p with body := p.body.map (·.withRole role) }

end Piece

/-- A source of terminals: what is read at a position, and the position after it. -/
abbrev Scanner (τ : Type) := τ → Nat → Option (Piece × Nat)

/-- A table of named rules. -/
structure Grammar (τ : Type) where
  rules : Std.HashMap String (Rule τ)

/-- A grammar from its rules. -/
def Grammar.ofList {τ : Type} (rules : List (String × Rule τ)) : Grammar τ :=
  ⟨Std.HashMap.ofList rules⟩

/-- The result of reading a rule at a position: the pieces and the position after them. -/
abbrev Reading := Option (List Piece × Nat)

/-- Readings of named rules made so far, by name and position. -/
abbrev Chart := Std.HashMap (String × Nat) Reading

namespace Grammar

variable {τ : Type}

mutual

/-- Reads a rule at a position. `left` is what a growing rule has read so far, and `fuel`
bounds the nesting of rules. -/
def read (g : Grammar τ) (scan : Scanner τ) :
    Nat → Rule τ → List Piece → Nat → Chart → Reading × Chart
  | 0, _, _, _, chart => (none, chart)
  | fuel + 1, rule, left, pos, chart =>
    match rule with
    | .empty => (some ([], pos), chart)
    | .term t => ((scan t pos).map fun (p, next) => ([p], next), chart)
    | .ref name =>
      match chart[(name, pos)]? with
      | some found => (found, chart)
      | none =>
        match g.rules[name]? with
        | none => (none, chart)
        | some r =>
          let (result, chart) := g.read scan fuel r [] pos chart
          (result, chart.insert (name, pos) result)
    | .seq a b =>
      match g.read scan fuel a left pos chart with
      | (none, chart) => (none, chart)
      | (some (ps, pos), chart) =>
        match g.read scan fuel b left pos chart with
        | (none, chart) => (none, chart)
        | (some (qs, pos), chart) => (some (ps ++ qs, pos), chart)
    | .alt a b =>
      match g.read scan fuel a left pos chart with
      | (none, chart) => g.read scan fuel b left pos chart
      | found => found
    | .star r =>
      match g.read scan fuel r left pos chart with
      | (none, chart) => (some ([], pos), chart)
      | (some (ps, next), chart) =>
        if next = pos then (some (ps, pos), chart)
        else
          match g.read scan fuel (.star r) left next chart with
          | (none, chart) => (some (ps, next), chart)
          | (some (qs, last), chart) => (some (ps ++ qs, last), chart)
    | .ahead r =>
      match g.read scan fuel r left pos chart with
      | (none, chart) => (none, chart)
      | (some _, chart) => (some ([], pos), chart)
    | .unless r =>
      match g.read scan fuel r left pos chart with
      | (none, chart) => (some ([], pos), chart)
      | (some _, chart) => (none, chart)
    | .role name r =>
      match g.read scan fuel r left pos chart with
      | (none, chart) => (none, chart)
      | (some (ps, next), chart) => (some (Piece.withRole name ps, next), chart)
    | .node kind r =>
      match g.read scan fuel r left pos chart with
      | (none, chart) => (none, chart)
      | (some (ps, next), chart) => (some (Piece.wrap kind ps, next), chart)
    | .phrase text r =>
      match g.read scan fuel r left pos chart with
      | (none, chart) => (none, chart)
      | (some (ps, next), chart) => (some (Piece.phrase text ps, next), chart)
    | .grow seed step =>
      match g.read scan fuel seed left pos chart with
      | (none, chart) => (none, chart)
      | (some (ps, next), chart) => g.extend scan fuel step ps next chart
    | .wrap kind role r =>
      match g.read scan fuel r [] pos chart with
      | (none, chart) => (none, chart)
      | (some (ps, next), chart) =>
        let before := match role with
          | none => left
          | some name => Piece.withRole name left
        (some (Piece.wrap kind (before ++ ps), next), chart)

/-- Wraps what has been read as long as a step succeeds. -/
def extend (g : Grammar τ) (scan : Scanner τ) :
    Nat → Rule τ → List Piece → Nat → Chart → Reading × Chart
  | 0, _, _, _, chart => (none, chart)
  | fuel + 1, step, left, pos, chart =>
    match g.read scan fuel step left pos chart with
    | (none, chart) => (some (left, pos), chart)
    | (some (ps, next), chart) =>
      if next = pos then (some (left, pos), chart)
      else g.extend scan fuel step ps next chart

end

end Grammar

end SourceFacts.Syntax
