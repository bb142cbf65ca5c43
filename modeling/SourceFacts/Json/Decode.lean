import SourceFacts.Json.Value
import SourceFacts.Table

/-!
# Values out of JSON

How JSON stands for other values. A record is an object, or a list of its fields in the order
in which they are declared. A plain choice is its name, or an object with that name as its only
field, which is null.
-/

namespace SourceFacts.Json

/-- Why a JSON value does not stand for a value of the kind asked for. -/
inductive Misfit where
  | notJson
  | wrongType
  | outOfRange
  | missing (field : String)
  | repeated (field : String)
  | unknownName (name : String)
  | tooMany
deriving Repr, BEq, DecidableEq, Inhabited

variable {α : Type}

/-- A string. -/
def asString : Json → Except Misfit String
  | .string s => .ok s
  | _ => .error .wrongType

/-- A truth value. -/
def asBool : Json → Except Misfit Bool
  | .bool b => .ok b
  | _ => .error .wrongType

/-- A natural number of at most 32 bits. -/
def asNat32 : Json → Except Misfit Nat
  | .int n => if 0 ≤ n && n < UInt32.size then .ok n.toNat else .error .outOfRange
  | _ => .error .wrongType

/-- A list. -/
def asList (f : Json → Except Misfit α) : Json → Except Misfit (List α)
  | .list items => items.mapM f
  | _ => .error .wrongType

/-- A value or null. -/
def asOption (f : Json → Except Misfit α) : Json → Except Misfit (Option α)
  | .null => .ok none
  | j => some <$> f j

/-- A table. Of fields with one name the last counts, but all of them have to fit. -/
def asTable (f : Json → Except Misfit α) : Json → Except Misfit (Table α)
  | .object fields => do
    let pairs ← fields.mapM fun (k, j) => do return (k, ← f j)
    return .ofPairs pairs
  | _ => .error .wrongType

/-- A pair of two. -/
def asPair {β : Type} (f : Json → Except Misfit α) (g : Json → Except Misfit β) :
    Json → Except Misfit (α × β)
  | .list [a, b] => do return (← f a, ← g b)
  | _ => .error .wrongType

/-- The name of a plain choice. -/
def asName : Json → Except Misfit String
  | .string s => .ok s
  | .object [(name, .null)] => .ok name
  | _ => .error .wrongType

/-- One of the given choices, by any of its names. -/
def asChoice (choices : List (List String × α)) (j : Json) : Except Misfit α := do
  let name ← asName j
  match choices.find? fun (names, _) => names.contains name with
  | some (_, a) => return a
  | none => throw (.unknownName name)

/-- The fields of a record as they were given. -/
structure Record where
  /-- The name of each declared field with its value, if there is one. -/
  fields : List (String × Option Json)
  /-- The fields were given as a list. -/
  listed : Bool
deriving Inhabited

/-- Sorts given fields by declared ones, each of which may have several names. Fields that are
not declared do not count, and none may be given twice. -/
def gather (declared : List (List String)) (given : List (String × Json)) :
    Except Misfit (List (String × Option Json)) :=
  declared.mapM fun names =>
    let name := names.headD ""
    match given.filter fun (k, _) => names.contains k with
    | [] => .ok (name, none)
    | [(_, j)] => .ok (name, some j)
    | _ => .error (.repeated name)

/-- The fields of a record with the given declaration. -/
def asRecord (declared : List (List String)) : Json → Except Misfit Record
  | .object given => do return ⟨← gather declared given, false⟩
  | .list items =>
    if items.length ≤ declared.length then
      .ok ⟨declared.mapIdx fun i names => (names.headD "", items[i]?), true⟩
    else .error .tooMany
  | _ => .error .wrongType

namespace Record

/-- The value given for a field. -/
def value? (r : Record) (name : String) : Option Json :=
  (r.fields.find? (·.1 == name)).bind (·.2)

/-- A field that has to be there. -/
def required (r : Record) (name : String) (f : Json → Except Misfit α) : Except Misfit α :=
  match r.value? name with
  | some j => f j
  | none => .error (.missing name)

/-- A field that has a default. -/
def withDefault (r : Record) (name : String) (default : α) (f : Json → Except Misfit α) :
    Except Misfit α :=
  match r.value? name with
  | some j => f j
  | none => .ok default

/-- A field that may be null, or be left out where fields are named. -/
def optional (r : Record) (name : String) (f : Json → Except Misfit α) :
    Except Misfit (Option α) :=
  match r.value? name with
  | some j => asOption f j
  | none => if r.listed then .error (.missing name) else .ok none

end Record

end SourceFacts.Json
