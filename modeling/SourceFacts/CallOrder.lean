import SourceFacts.Outline

/-!
# Callees before callers

Orders the functions of one scope so that each stands after those it calls. A function is
released once all its callees are placed; those released at the same time keep their order.
Where calls form a cycle there is no such order.
-/

namespace SourceFacts

/-- The scope in which calls are resolved. -/
inductive Scope where
  /-- The methods of a class: calls on `self` and `cls`, and bare ones. -/
  | methods
  /-- The functions of a module: bare calls only. -/
  | functions
deriving Repr, BEq, DecidableEq, Inhabited

/-- Whether a call may go to a function of the scope. -/
def Scope.resolves (s : Scope) (c : CallRef) : Bool :=
  match s, c.receiver with
  | _, none => true
  | .methods, some r => r == "self" || r == "cls"
  | .functions, some _ => false

namespace CallOrder

/-- The function that a name stands for: the first that bears it. -/
def indexOf? (functions : List FunctionOutline) (name : String) : Option Nat :=
  functions.findIdx? (·.name == name)

/-- The functions that a function calls, other than by its own name, each once. -/
def calleesOf (scope : Scope) (functions : List FunctionOutline) (f : FunctionOutline) :
    List Nat :=
  ((f.calls.filter fun c => scope.resolves c && c.name != f.name).filterMap fun c =>
    indexOf? functions c.name).eraseDups

/-- For each function, the functions that it calls. -/
def callees (scope : Scope) (functions : List FunctionOutline) : List (List Nat) :=
  functions.map (calleesOf scope functions)

/-- The functions that call a given one, in order. -/
def callersOf (callees : List (List Nat)) (i : Nat) : List Nat :=
  (List.range callees.length).filter fun j => (callees[j]?).any (·.contains i)

/-- Where the ordering stands: how many callees of each function are yet to be placed, the
functions that wait to be placed, and those placed, the latest first. -/
structure Progress where
  missing : List Nat
  queue : List Nat
  placed : List Nat
deriving Repr, Inhabited

namespace Progress

/-- At first, whoever calls nobody may be placed. -/
def start (callees : List (List Nat)) : Progress :=
  { missing := callees.map List.length
    queue := (List.range callees.length).filter fun i => (callees[i]?).any List.isEmpty
    placed := [] }

/-- Notes that one callee of a function has been placed. -/
def release (p : Progress) (caller : Nat) : Progress :=
  let left := p.missing.getD caller 0 - 1
  { p with
    missing := p.missing.set caller left
    queue := if left = 0 then p.queue ++ [caller] else p.queue }

/-- Places the first function that waits. -/
def step (callees : List (List Nat)) (p : Progress) : Progress :=
  match p.queue with
  | [] => p
  | i :: rest =>
    (callersOf callees i).foldl release { p with queue := rest, placed := i :: p.placed }

/-- Places so many functions. -/
def run (callees : List (List Nat)) : Nat → Progress → Progress
  | 0, p => p
  | n + 1, p => run callees n (p.step callees)

end Progress

/-- The positions of the functions in an order in which callees come before callers, if there
is one. -/
def dependencyOrder? (scope : Scope) (functions : List FunctionOutline) : Option (List Nat) :=
  let callees := callees scope functions
  let p := Progress.run callees callees.length (Progress.start callees)
  if p.placed.length = callees.length then some p.placed.reverse else none

/-- Takes functions out of their slots, one after the other. A slot that has been emptied before
gives nothing. -/
def takeAll : List (Option FunctionOutline) → List Nat → List FunctionOutline
  | _, [] => []
  | slots, i :: order =>
    match slots.getD i none with
    | some f => f :: takeAll (slots.set i none) order
    | none => takeAll slots order

/-- Puts callees before callers, or leaves the functions as they are. -/
def sort (scope : Scope) (functions : List FunctionOutline) : List FunctionOutline :=
  match dependencyOrder? scope functions with
  | some order => takeAll (functions.map some) order
  | none => functions

end CallOrder

end SourceFacts
