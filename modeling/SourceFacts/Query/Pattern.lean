import SourceFacts.Query.Basic

/-!
# Patterns and their steps

A pattern as it is written, and how it is laid out as steps. Choice jumps from the start of one
branch to the start of the next, and from the end of each to the end of all; repetition jumps
back to the start; what may be missing has a jump past its end.
-/

namespace SourceFacts.Query

/-- A pattern over nodes. -/
inductive Pattern where
  /-- A node, the roles none of its children plays, and its children in order; `closed` says
  that no named node comes after the last of them. -/
  | node (target : Target) (absent : List String) (children : List Pattern) (closed : Bool)
  /-- Any of the branches. -/
  | choice (branches : List Pattern)
  /-- Siblings, in order. -/
  | group (members : List Pattern)
  /-- A node in a role. -/
  | inRole (role : String) (p : Pattern)
  /-- A node that is captured under a number. -/
  | captured (index : Nat) (p : Pattern)
  /-- A node that follows its predecessor with no named node between. -/
  | next (p : Pattern)
  /-- Once or more. -/
  | oneOrMore (p : Pattern)
  /-- Any number of times. -/
  | anyNumber (p : Pattern)
  /-- Perhaps. -/
  | perhaps (p : Pattern)
deriving Inhabited

/-- How many captures one step keeps. -/
def captureLimit : Nat := 3

/-- How many roles a step can forbid. -/
def absentLimit : Nat := 8

namespace Step

/-- The alternative of a step, provided that it lies further on. -/
def onward? (steps : Array Step) (i : Nat) : Option Nat :=
  match steps[i]? with
  | none => none
  | some s => s.alternative.filter fun j => i < j && j < steps.size

/-- Changes a step and every alternative further on. -/
def change (f : Step → Step) : (fuel : Nat) → Nat → Array Step → Array Step
  | 0, _, steps => steps
  | fuel + 1, i, steps =>
    let next := onward? steps i
    let steps := steps.modify i f
    match next with
    | none => steps
    | some j => change f fuel j steps

/-- The last step in a row of alternatives that lie below a bound. -/
def lastAlternative (steps : Array Step) (bound : Nat) : (fuel : Nat) → Nat → Nat
  | 0, i => i
  | fuel + 1, i =>
    match (steps[i]?.bind (·.alternative)).filter (· < bound) with
    | none => i
    | some j => lastAlternative steps bound fuel j

/-- Lets a pattern that starts at `i` be left out. -/
def skippable (i bound : Nat) (steps : Array Step) : Array Step :=
  steps.modify (lastAlternative steps bound steps.size i) fun s =>
    { s with alternative := some steps.size }

/-- Marks a step and its alternatives as last among their siblings. -/
def markLast : (fuel : Nat) → Nat → Array Step → Array Step
  | 0, _, steps => steps
  | fuel + 1, i, steps =>
    let next := (steps[i]?.bind (·.alternative)).filter (· < steps.size)
    let steps := steps.modify i fun s => { s with lastChild := true }
    match next with
    | none => steps
    | some j => markLast fuel j steps

/-- The step that jumps back to the start of a repetition. -/
def back (start depth : Nat) : Step :=
  { Step.plain (.any false) (some depth) false with
    alternative := some start, passThrough := true, alternativeImmediate := true }

/-- Links the branches of a choice, given where each starts. -/
def link : (starts : List Nat) → Array Step → Array Step
  | a :: b :: rest, steps =>
    let steps := steps.modify a fun s => { s with alternative := some b }
    let steps := steps.modify (b - 1) fun s =>
      { s with alternative := some steps.size, deadEnd := true }
    link (b :: rest) steps
  | _, steps => steps

end Step

namespace Pattern

mutual

/-- Appends the steps of a pattern. -/
def layout (depth : Nat) (immediate : Bool) (steps : Array Step) : Pattern → Array Step
  | .node target absent children closed =>
    let steps := steps.push
      { Step.plain target (some depth) immediate with absent := absent.take absentLimit }
    let (steps, last) := layoutRow (depth + 1) false steps none children
    match last with
    | some i => if closed then Step.markLast steps.size i steps else steps
    | none => steps
  | .choice branches =>
    let (steps, starts) := layoutBranches depth immediate steps branches
    Step.link starts steps
  | .group members => (layoutRow depth immediate steps none members).1
  | .inRole role p =>
    let start := steps.size
    let steps := layout depth immediate steps p
    Step.change (fun s => { s with role := some role }) steps.size start steps
  | .captured index p =>
    let start := steps.size
    let steps := layout depth immediate steps p
    Step.change (fun s => { s with captures := (s.captures ++ [index]).take captureLimit })
      steps.size start steps
  | .next p => layout depth true steps p
  | .oneOrMore p =>
    let start := steps.size
    (layout depth immediate steps p).push (Step.back start depth)
  | .anyNumber p =>
    let start := steps.size
    let steps := layout depth immediate steps p
    Step.skippable start steps.size (steps.push (Step.back start depth))
  | .perhaps p =>
    let start := steps.size
    let steps := layout depth immediate steps p
    Step.skippable start steps.size steps

/-- Appends the steps of siblings; gives where the last of them starts. -/
def layoutRow (depth : Nat) (immediate : Bool) (steps : Array Step) (last : Option Nat) :
    List Pattern → Array Step × Option Nat
  | [] => (steps, last)
  | p :: rest =>
    layoutRow depth false (layout depth immediate steps p) (some steps.size) rest

/-- Appends the steps of branches with a jump after each but the last; gives their starts. -/
def layoutBranches (depth : Nat) (immediate : Bool) (steps : Array Step) :
    List Pattern → Array Step × List Nat
  | [] => (steps, [])
  | [p] => (layout depth immediate steps p, [steps.size])
  | p :: rest =>
    let start := steps.size
    let steps := (layout depth immediate steps p).push
      (Step.plain (.any false) (some depth) false)
    let (steps, starts) := layoutBranches depth immediate steps rest
    (steps, start :: starts)

end

end Pattern

/-- Whether a step or one below it captures anything. -/
def capturesBelow (depth : Nat) : List Step → Bool
  | [] => false
  | s :: rest =>
    match s.depth with
    | none => false
    | some d => d > depth && (!s.captures.isEmpty || capturesBelow depth rest)

/-- Marks the steps at which another node may lead to another match: those that capture, or
have steps below them. -/
def markSplits : List Step → List Step
  | [] => []
  | s :: rest =>
    let splits :=
      match s.depth with
      | none => false
      | some d =>
        !s.captures.isEmpty || capturesBelow d rest
          || (rest.head?.bind (·.depth)).any (d < ·)
    { s with splits } :: markSplits rest

/-- Adds an entry before those of the same target and no earlier pattern. -/
def addEntry (steps : Array Step) (e : Entry) (entries : List Entry) : List Entry :=
  let target (e : Entry) : Target := ((steps[e.step]?).map (·.target)).getD .never
  match entries.findIdx? fun f => target f == target e && e.pattern ≤ f.pattern with
  | none => entries ++ [e]
  | some i => entries.take i ++ e :: entries.drop i

/-- Adds the entries of a pattern whose steps start at `start`. A pattern with an open root and
a definite first child is entered at that child; `pending` is the alternative of a root left
aside so. Alternatives of the first step are entries of their own. -/
def addEntries (pattern : Nat) :
    (fuel start : Nat) → (pending : Option Nat) → Array Step → List Entry →
      Array Step × List Entry
  | 0, _, _, steps, entries => (steps, entries)
  | fuel + 1, start, pending, steps, entries =>
    match steps[start]?, steps[start + 1]? with
    | some first, second =>
      let enterBelow := first.target.isOpen && first.depth == some 0 && first.role.isNone &&
        second.any fun s => !s.target.isOpen && s.depth == some 1 && !s.immediate
      let (start, pending) :=
        if enterBelow then (start + 1, first.alternative) else (start, pending)
      let entries := addEntry steps ⟨start, pattern⟩ entries
      match steps[start]?.bind (·.alternative) with
      | some next =>
        let steps := steps.modify start fun s => { s with alternative := none }
        addEntries pattern fuel next pending steps entries
      | none =>
        match pending with
        | some next => addEntries pattern fuel next none steps entries
        | none => (steps, entries)
    | none, _ => (steps, entries)

/-- The end of a pattern. -/
def Step.finish : Step := Step.plain .never none false

/-- Lays out patterns, each with its predicates, as a query. -/
def assemble (captureNames : Array String) (patterns : List (Option Pattern × List Predicate)) :
    Query :=
  let (steps, entries, predicates) := patterns.foldl
    (fun (steps, entries, predicates) (p, conditions) =>
      match p with
      | none => (steps, entries, predicates)
      | some p =>
        let start := steps.size
        let steps := (p.layout 0 false steps).push Step.finish
        let (steps, entries) :=
          addEntries predicates.size steps.size start none steps entries
        (steps, entries, predicates.push conditions))
    ((#[] : Array Step), ([] : List Entry), (#[] : Array (List Predicate)))
  { steps := (markSplits steps.toList).toArray, entries, predicates, captureNames }

end SourceFacts.Query
