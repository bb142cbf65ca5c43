import SourceFacts.Toml.Scalar

/-!
# How TOML is read

A document is a tree of tables, built line by line. A table may be opened by one header only;
one that a header or a dotted key merely passes through can still be opened or added to. The
document denotes a JSON object.
-/

namespace SourceFacts.Toml

/-- How a table came about. -/
inductive Origin where
  /-- On the way to another table. -/
  | passed
  /-- On the way of a dotted key. -/
  | dotted
  /-- By a header of its own. -/
  | opened
  /-- Between braces. -/
  | closed
deriving Repr, BEq, DecidableEq, Inhabited

/-- What stands under a key. -/
inductive Item where
  | value (j : Json)
  | table (origin : Origin) (entries : List (String × Item))
  /-- Tables under one repeated header, the latest first. -/
  | tables (all : List Item)
deriving Inhabited

namespace Item

mutual

/-- The JSON value that an item denotes. -/
def toJson : Item → Json
  | .value j => j
  | .table _ entries => .object (fieldsOf entries)
  | .tables all => .list (itemsOf all).reverse

/-- The JSON values of items. -/
def itemsOf : List Item → List Json
  | [] => []
  | i :: rest => i.toJson :: itemsOf rest

/-- The JSON fields of entries. -/
def fieldsOf : List (String × Item) → List (String × Json)
  | [] => []
  | (k, i) :: rest => (k, i.toJson) :: fieldsOf rest

end

end Item

/-- The entry with the given key. -/
def entry? (entries : List (String × Item)) (key : String) : Option Item :=
  (entries.find? (·.1 == key)).map (·.2)

/-- Puts an item under a key, in its old place if there is one. -/
def putEntry (key : String) (item : Item) : List (String × Item) → List (String × Item)
  | [] => [(key, item)]
  | (k, i) :: rest => if k = key then (key, item) :: rest else (k, i) :: putEntry key item rest

/-- Changes the entries of the table at the end of a path, making tables on the way. With
`dotted`, tables that have a header of their own are out of bounds. -/
def change (dotted : Bool)
    (f : List (String × Item) → Except Fault (List (String × Item))) :
    List String → List (String × Item) → Except Fault (List (String × Item))
  | [], entries => f entries
  | key :: path, entries => do
    let item ← match entry? entries key with
      | none =>
        .table (if dotted then .dotted else .passed) <$> change dotted f path []
      | some (.table origin inner) =>
        if origin = .closed || (dotted && origin = .opened) then .error (.repeatedKey key)
        else .table origin <$> change dotted f path inner
      | some (.tables (.table origin inner :: more)) =>
        if dotted then .error (.repeatedKey key)
        else (fun inner => .tables (.table origin inner :: more)) <$> change dotted f path inner
      | some _ => .error (.repeatedKey key)
    return putEntry key item entries

/-- Puts a new value at a dotted key. -/
def insert (path : List String) (item : Item) (entries : List (String × Item)) :
    Except Fault (List (String × Item)) :=
  let last := path.getLastD ""
  change true (fun inner =>
    match entry? inner last with
    | none => .ok (putEntry last item inner)
    | some _ => .error (.repeatedKey last)) path.dropLast entries

/-- Opens the table at a path. -/
def openTable (path : List String) (entries : List (String × Item)) :
    Except Fault (List (String × Item)) :=
  let last := path.getLastD ""
  change false (fun inner =>
    match entry? inner last with
    | none => .ok (putEntry last (.table .opened []) inner)
    | some (.table .passed found) => .ok (putEntry last (.table .opened found) inner)
    | some _ => .error (.repeatedKey last)) path.dropLast entries

/-- Adds a table to those under a repeated header. -/
def addTable (path : List String) (entries : List (String × Item)) :
    Except Fault (List (String × Item)) :=
  let last := path.getLastD ""
  change false (fun inner =>
    match entry? inner last with
    | none => .ok (putEntry last (.tables [.table .opened []]) inner)
    | some (.tables all) => .ok (putEntry last (.tables (.table .opened [] :: all)) inner)
    | some _ => .error (.repeatedKey last)) path.dropLast entries

mutual

/-- Reads a value. -/
def readValue : (fuel : Nat) → List Char → Except Fault (Json × List Char)
  | 0, _ => .error .tooDeep
  | fuel + 1, s =>
    match s with
    | '"' :: rest => do
      let (text, rest) ← readText '"' rest
      return (.string text, rest)
    | '\x27' :: rest => do
      let (text, rest) ← readText '\x27' rest
      return (.string text, rest)
    | '[' :: rest => readItems fuel [] (skipLines (rest.length + 1) rest)
    | '\x7b' :: rest =>
      match skipSpace rest with
      | '\x7d' :: rest => .ok (.object [], rest)
      | rest => readFields fuel [] rest
    | s => readWord s

/-- Reads items up to the closing bracket. -/
def readItems : (fuel : Nat) → List Json → List Char → Except Fault (Json × List Char)
  | 0, _, _ => .error .tooDeep
  | fuel + 1, acc, s =>
    match s with
    | ']' :: rest => .ok (.list acc.reverse, rest)
    | s => do
      let (j, rest) ← readValue fuel s
      match skipLines (rest.length + 1) rest with
      | ',' :: rest => readItems fuel (j :: acc) (skipLines (rest.length + 1) rest)
      | ']' :: rest => return (.list (j :: acc).reverse, rest)
      | _ => throw .malformed

/-- Reads the fields of a table up to the closing brace. -/
def readFields : (fuel : Nat) → List (String × Item) → List Char → Except Fault (Json × List Char)
  | 0, _, _ => .error .tooDeep
  | fuel + 1, acc, s => do
    let (path, rest) ← readKey (s.length + 1) s
    match rest with
    | '=' :: rest =>
      let (j, rest) ← readValue fuel (skipSpace rest)
      let acc ← insert path (.value j) acc
      match skipSpace rest with
      | ',' :: rest => readFields fuel acc (skipSpace rest)
      | '\x7d' :: rest => return (.object (Item.fieldsOf acc), rest)
      | _ => throw .malformed
    | _ => throw .malformed

end

/-- Reads to the end of a line on which nothing more may stand. -/
def endLine (s : List Char) : Except Fault (List Char) :=
  match skipComment (skipSpace s) with
  | [] => .ok []
  | rest =>
    match lineEnd? rest with
    | some rest => .ok rest
    | none => .error .malformed

/-- Reads a line: a header, a key with its value, or nothing. `here` is the path of the latest
header. -/
def readDocument : (fuel : Nat) → (here : List String) → List (String × Item) → List Char →
    Except Fault (List (String × Item))
  | 0, _, _, _ => .error .tooDeep
  | fuel + 1, here, entries, s =>
    match skipSpace s with
    | [] => .ok entries
    | '[' :: '[' :: rest => do
      let (path, rest) ← readKey (rest.length + 1) rest
      match rest with
      | ']' :: ']' :: rest =>
        let entries ← addTable path entries
        readDocument fuel path entries (← endLine rest)
      | _ => throw .malformed
    | '[' :: rest => do
      let (path, rest) ← readKey (rest.length + 1) rest
      match rest with
      | ']' :: rest =>
        let entries ← openTable path entries
        readDocument fuel path entries (← endLine rest)
      | _ => throw .malformed
    | '#' :: rest => do readDocument fuel here entries (← endLine ('#' :: rest))
    | rest =>
      match lineEnd? rest with
      | some rest => readDocument fuel here entries rest
      | none => do
        let (path, rest) ← readKey (rest.length + 1) rest
        match rest with
        | '=' :: rest =>
          let (j, rest) ← readValue (rest.length + 2) (skipSpace rest)
          let entries ← change false (insert path (.value j)) here entries
          readDocument fuel here entries (← endLine rest)
        | _ => throw .malformed

/-- The object that a document denotes, if it is TOML. -/
def ofText (text : String) : Except Fault Json := do
  let s := match text.toList with
    | c :: rest => if c.toNat = 0xFEFF then rest else c :: rest
    | [] => []
  let entries ← readDocument (s.length + 2) [] [] s
  return .object (Item.fieldsOf entries)

end SourceFacts.Toml
