/-!
# JSON values

The values of the JSON format. Numbers are whole, or else just kept as written. What denotes
none of its values, such as a text with half of a surrogate pair in it, is kept as such.
-/

namespace SourceFacts

/-- A JSON value. An object keeps its fields in order, repeated names included. -/
inductive Json where
  | null
  | bool (b : Bool)
  | int (n : Int)
  /-- A number that is not written as a whole number. -/
  | fraction (text : String)
  | string (s : String)
  /-- Something well written that denotes no value: a text that is no string, or a date. -/
  | broken
  | list (items : List Json)
  | object (fields : List (String × Json))
deriving Repr, Inhabited

namespace Json

/-- A natural number. -/
def nat (n : Nat) : Json := .int n

/-- A list of strings. -/
def strings (items : List String) : Json := .list (items.map .string)

/-- A value, or null. -/
def ofOption {α : Type} (f : α → Json) : Option α → Json
  | none => .null
  | some a => f a

/-- The last value of the field with the given name. -/
def field? (j : Json) (name : String) : Option Json :=
  match j with
  | .object fields => (fields.reverse.find? (·.1 == name)).map (·.2)
  | _ => none

mutual

/-- Whether a value denotes all its texts and nests at most so deep. -/
def isSound (depth : Nat) : Json → Bool
  | .broken => false
  | .list items => depth != 0 && areSound (depth - 1) items
  | .object fields => depth != 0 && fieldsAreSound (depth - 1) fields
  | _ => true

/-- Whether all items denote their texts and nest at most so deep. -/
def areSound (depth : Nat) : List Json → Bool
  | [] => true
  | j :: rest => j.isSound depth && areSound depth rest

/-- Whether all fields denote their texts and nest at most so deep. -/
def fieldsAreSound (depth : Nat) : List (String × Json) → Bool
  | [] => true
  | (_, j) :: rest => j.isSound depth && fieldsAreSound depth rest

end

end Json

end SourceFacts
