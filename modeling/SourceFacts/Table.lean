/-!
# Tables with text keys

A table holds at most one value for each key and lists its keys in order of their characters.
-/

namespace SourceFacts

/-- A table with text keys. -/
structure Table (α : Type) where
  entries : List (String × α)
deriving Repr, BEq, DecidableEq, Inhabited

namespace Table

variable {α β : Type}

/-- The table without entries. -/
def empty : Table α := ⟨[]⟩

/-- Puts a value under a key in a list of entries that is in order. -/
def setIn (key : String) (value : α) : List (String × α) → List (String × α)
  | [] => [(key, value)]
  | (k, v) :: rest =>
    if key < k then (key, value) :: (k, v) :: rest
    else if key = k then (key, value) :: rest
    else (k, v) :: setIn key value rest

/-- Puts a value under a key, in place of what was there. -/
def set (t : Table α) (key : String) (value : α) : Table α := ⟨setIn key value t.entries⟩

/-- The value under a key. -/
def get? (t : Table α) (key : String) : Option α :=
  (t.entries.find? (·.1 == key)).map (·.2)

/-- Whether there is a value under a key. -/
def has (t : Table α) (key : String) : Bool := t.entries.any (·.1 == key)

/-- How many keys there are. -/
def size (t : Table α) : Nat := t.entries.length

/-- Whether there are no keys. -/
def isEmpty (t : Table α) : Bool := t.entries.isEmpty

/-- The keys, in order. -/
def keys (t : Table α) : List String := t.entries.map (·.1)

/-- The table of a list of pairs, the last of which counts for each key. -/
def ofPairs (pairs : List (String × α)) : Table α :=
  pairs.foldl (fun t (k, v) => t.set k v) empty

/-- Changes every value. -/
def map (f : α → β) (t : Table α) : Table β := ⟨t.entries.map fun (k, v) => (k, f v)⟩

end Table

end SourceFacts
