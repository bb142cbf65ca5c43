import SourceFacts.Query.Basic
import SourceFacts.Syntax.SourceText

/-!
# Where a query matches

A tree is walked once, parents before children. Attempts to match are carried along: each knows
the step that it has to take next, the depth at which it started, and what it has captured.
An attempt may split, when a later node could take the place of the present one or a step has
an alternative. Of two attempts at the same step the one that has captured less is dropped, and
a complete attempt waits while another could still capture more.

Matches come in the order in which they are completed.
-/

namespace SourceFacts.Query

open Syntax

/-- An attempt to match a pattern. -/
structure Attempt where
  step : Nat
  pattern : Nat
  /-- The depth at which the pattern starts. -/
  base : Int
  captures : List Capture
  /-- The next node has to fit. -/
  pressed : Bool
  /-- Another attempt may capture more. -/
  waits : Bool
  /-- The open root of the pattern has yet to be found above the first node. -/
  needsParent : Bool
deriving Inhabited

/-- A node of the walk, with its depth and its later siblings. -/
structure Site where
  place : Place
  depth : Nat
  later : List Node
deriving Inhabited

namespace Attempt

/-- Whether two captures hold the same node under the same number. -/
def sameCapture (a b : Capture) : Bool :=
  a.index == b.index && a.place.node.span == b.place.node.span && a.place.way == b.place.way

/-- Whether the first capture comes before, with, or after the second, should they differ. -/
def order (a b : Capture) : Ordering :=
  let s := a.place.node.span
  let t := b.place.node.span
  (compare s.start t.start).then (compare t.stop s.stop)

/-- Whether each of two lists of captures contains the other. -/
def containment : (fuel : Nat) → List Capture → List Capture → Bool × Bool
  | 0, _, _ => (false, false)
  | _, [], [] => (true, true)
  | _, _ :: _, [] => (true, false)
  | _, [], _ :: _ => (false, true)
  | fuel + 1, a :: as, b :: bs =>
    if sameCapture a b then containment fuel as bs
    else
      let kind := if a.place.way == b.place.way then .eq else order a b
      match kind with
      | .lt => ((containment fuel as (b :: bs)).1, false)
      | .gt => (false, (containment fuel (a :: as) bs).2)
      | .eq => (false, false)

/-- Follows jumps: an attempt goes on at its step and at every alternative of it. -/
def branches (steps : Array Step) : (fuel : Nat) → Attempt → List Attempt
  | 0, a => [a]
  | fuel + 1, a =>
    match steps[a.step]? with
    | none => [a]
    | some s =>
      match s.alternative with
      | none => [a]
      | some j =>
        if s.deadEnd then branches steps fuel { a with step := j }
        else
          let other := { a with step := j, pressed := a.pressed || s.alternativeImmediate }
          let here :=
            if s.passThrough then branches steps fuel { a with step := a.step + 1 } else [a]
          here ++ branches steps fuel other

/-- The captures that the open root of a pattern takes, when the pattern was entered below it. -/
def rootCaptures (steps : Array Step) : (i : Nat) → List Nat
  | 0 => []
  | i + 1 =>
    match steps[i]? with
    | none => []
    | some s =>
      if s.deadEnd || s.passThrough || s.depth != some 0 then rootCaptures steps i
      else s.captures

/-- Whether the node of a site fits a step. -/
def fits (x : Site) (s : Step) : Bool :=
  let n := x.place.node
  s.target.accepts n
    && !(s.lastChild && x.later.any (·.named))
    && (s.role.isNone || n.role == s.role)
    && s.absent.all fun role => (n.child? role).isNone

/-- Whether a later sibling could fit in place of the node. -/
def laterMayFit (x : Site) (a : Attempt) (s : Step) : Bool :=
  let n := x.place.node
  !x.later.isEmpty && !(s.immediate && n.named) && !a.pressed
    && (s.role.isNone || n.role != s.role || x.later.any (·.role == s.role))

/-- An attempt, after the node of a site has been entered. -/
def enter (steps : Array Step) (x : Site) (a : Attempt) : List Attempt :=
  let a := { a with waits := false }
  match steps[a.step]? with
  | none => [a]
  | some s =>
    match s.depth with
    | none => [a]
    | some d =>
      if a.base + d != (x.depth : Int) then [a]
      else
        let later := a.laterMayFit x s
        if !fits x s then if later then [a] else []
        else
          let stays := if later && s.splits then [a] else []
          let above : Option (List Capture) :=
            if a.needsParent then
              x.place.parent?.map fun p => (rootCaptures steps a.step).map (⟨·, p⟩)
            else some []
          match above with
          | none => stays
          | some above =>
            let nextImmediate := (steps[a.step + 1]?).any (·.immediate)
            let onward : Attempt :=
              { a with
                step := a.step + 1
                captures := a.captures ++ above ++ s.captures.map (⟨·, x.place⟩)
                needsParent := false
                pressed := (match s.target with
                  | .any named => !named
                  | .oneOf _ => true
                  | _ => false) && nextImmediate }
            branches steps (2 * steps.size) onward ++ stays

/-- Sets an attempt against those after it of the same start; it may be dropped, or drop some of
them, or learn that it has to wait. -/
def contend (a : Attempt) : List Attempt → Option Attempt × List Attempt
  | [] => (some a, [])
  | b :: rest =>
    if b.base != a.base || b.pattern != a.pattern then (some a, b :: rest)
    else
      let (left, right) :=
        containment (a.captures.length + b.captures.length + 1) a.captures b.captures
      if left && a.step == b.step then contend a rest
      else
        let b := { b with waits := b.waits || left }
        if right && a.step == b.step then (none, b :: rest)
        else
          let (a, rest) := contend { a with waits := a.waits || right } rest
          (a, b :: rest)

/-- The match of a complete attempt. -/
def toMatch (a : Attempt) : Match := ⟨a.pattern, a.captures⟩

/-- Whether an attempt is complete. -/
def isDone (steps : Array Step) (a : Attempt) : Bool :=
  (steps[a.step]?).all (·.depth.isNone)

/-- Drops attempts that others outdo, and takes out those that are complete. -/
def settle (steps : Array Step) : (fuel : Nat) → List Attempt → List Attempt × List Match
  | 0, attempts => (attempts, [])
  | _, [] => ([], [])
  | fuel + 1, a :: rest =>
    let (a, rest) := contend a rest
    let (attempts, found) := settle steps fuel rest
    match a with
    | none => (attempts, found)
    | some a =>
      if isDone steps a && !a.waits then (attempts, a.toMatch :: found)
      else (a :: attempts, found)

/-- Adds a new attempt in order of start and pattern, unless there is one like it. -/
def insert (a : Attempt) (attempts : List Attempt) : List Attempt :=
  go attempts.reverse []
where
  /-- Walks from the last attempt to the first. -/
  go : List Attempt → List Attempt → List Attempt
  | [], after => a :: after
  | b :: before, after =>
    if b.base < a.base then (b :: before).reverse ++ a :: after
    else if b.base == a.base && b.pattern == a.pattern && b.step == a.step then
      (b :: before).reverse ++ after
    else if b.base == a.base && b.pattern ≤ a.pattern then (b :: before).reverse ++ a :: after
    else go before (b :: after)

end Attempt

/-- The state of a walk: the attempts under way, and the matches found, the latest first. -/
structure Walk where
  attempts : List Attempt
  found : List Match
deriving Inhabited

namespace Walk

/-- Starts an attempt for an entry, if the node is in the right role. -/
def start (q : Query) (x : Site) (w : Walk) (e : Entry) : Walk :=
  match q.steps[e.step]? with
  | none => w
  | some s =>
    if s.role.isNone || x.place.node.role == s.role then
      let depth := s.depth.getD 0
      let a : Attempt :=
        { step := e.step, pattern := e.pattern, base := (x.depth : Int) - depth, captures := [],
          pressed := true, waits := false, needsParent := depth == 1 }
      { w with attempts := a.insert w.attempts }
    else w

/-- Enters a node. -/
def enter (q : Query) (x : Site) (w : Walk) : Walk :=
  let target (e : Entry) : Target := ((q.steps[e.step]?).map (·.target)).getD .never
  let n := x.place.node
  let anywhere := q.entries.filter fun e => (target e).isOpen
  let here := q.entries.filter fun e => target e == .kind n.kind n.named
  let w := (anywhere ++ here).foldl (start q x) w
  let attempts := w.attempts.flatMap (Attempt.enter q.steps x)
  let (attempts, found) := Attempt.settle q.steps attempts.length attempts
  { attempts, found := found.reverse ++ w.found }

/-- Leaves a node: what waited inside it is complete, what needed more inside it has failed. -/
def leave (q : Query) (depth : Nat) (w : Walk) : Walk :=
  let isOver (a : Attempt) : Bool :=
    Attempt.isDone q.steps a && ((depth : Int) < a.base || depth == 0)
  let isLost (a : Attempt) : Bool :=
    ((q.steps[a.step]?).bind (·.depth)).any fun d => (depth : Int) < a.base + d
  { attempts := w.attempts.filter fun a => !isOver a && !isLost a
    found := ((w.attempts.filter isOver).map Attempt.toMatch).reverse ++ w.found }

mutual

/-- Walks the tree at a place. -/
def tree (q : Query) (depth : Nat) (above : List (Node × Nat)) (later : List Node) (w : Walk) :
    Node → Walk
  | ⟨kind, named, role, span, children⟩ =>
    let n : Node := ⟨kind, named, role, span, children⟩
    let w := w.enter q ⟨⟨n, above⟩, depth, later⟩
    (forest q (depth + 1) n above 0 w children).leave q depth

/-- Walks the children of a node, from the child at a position on. -/
def forest (q : Query) (depth : Nat) (parent : Node) (above : List (Node × Nat)) (i : Nat)
    (w : Walk) : List Node → Walk
  | [] => w
  | n :: rest =>
    forest q depth parent above (i + 1) (tree q depth ((parent, i) :: above) rest w n) rest

end

end Walk

/-- The texts captured under a number. -/
def Match.texts (m : Match) (t : SourceText) (index : Nat) : List String :=
  (m.captures.filter (·.index == index)).map fun c => t.textOf c.place.node

/-- Whether all comparisons of captured texts come out as they should; where one is enough, or
nothing was captured, they do. -/
def agree (positive every : Bool) (outcomes : List Bool) : Bool :=
  !every || outcomes.all (· == positive)

/-- Whether a match meets a condition. -/
def Predicate.holds (t : SourceText) (m : Match) : Predicate → Bool
  | .equal positive every i (.text s) => agree positive every ((m.texts t i).map (· == s))
  | .equal positive every i (.capture j) =>
    let as := m.texts t i
    let bs := m.texts t j
    let outcomes := (as.zip bs).map fun (a, b) => a == b
    if every then outcomes.all (· == positive) && as.length == bs.length
    else outcomes.any (· == positive) || as.length == bs.length
  | .matched positive every i r => agree positive every ((m.texts t i).map r.matchesIn)
  | .among positive i choices =>
    (m.texts t i).all fun s => choices.contains s == positive
  | .remark => true

/-- The matches of a query in a tree, in the order in which they are completed. -/
def matchesOf (q : Query) (t : SourceText) (root : Node) : List Match :=
  let w := Walk.tree q 0 [] [] ⟨[], []⟩ root
  w.found.reverse.filter fun m =>
    ((q.predicates[m.pattern]?).getD []).all (·.holds t m)

end SourceFacts.Query
