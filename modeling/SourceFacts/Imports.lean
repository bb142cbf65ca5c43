import SourceFacts.Text.Part

/-!
# Imports

Imported paths and the local names they go by. Paths have dotted parts; the names of parent
modules are prefixes of a path.
-/

namespace SourceFacts

/-- An imported path with its local name, which wildcards and bare imports lack. -/
structure ImportBinding where
  path : String
  localName : Option String
deriving Repr, BEq, DecidableEq, Inhabited

/-- Local names by path, in order of binding. The first binding of a path counts. -/
structure ImportAliases where
  entries : List (String × String)
deriving Repr, BEq, DecidableEq, Inhabited

/-- What follows a prefix and a dot, if that is anything. -/
def afterDottedPrefix? (path front : String) : Option String :=
  match Text.afterFront? front.toList path.toList with
  | some ('.' :: c :: rest) => some (String.ofList (c :: rest))
  | _ => none

namespace ImportAliases

/-- No names. -/
def empty : ImportAliases := ⟨[]⟩

/-- The local name of a path. -/
def get? (m : ImportAliases) (path : String) : Option String :=
  (m.entries.find? (·.1 == path)).map (·.2)

/-- Binds a path to a local name, unless it is bound. -/
def insert (m : ImportAliases) (path localName : String) : ImportAliases :=
  if (m.get? path).isSome then m else ⟨m.entries ++ [(path, localName)]⟩

/-- The names of a list of pairs. -/
def ofPairs (pairs : List (String × String)) : ImportAliases :=
  pairs.foldl (fun m (path, localName) => m.insert path localName) empty

/-- The spelling that an entry gives to a path: the name itself, or with what follows a parent
module. -/
def spelling? (path : String) (entry : String × String) : Option String :=
  if entry.1 = path then some entry.2
  else (afterDottedPrefix? path entry.1).map fun rest => entry.2 ++ "." ++ rest

/-- The ways in which a path can be spelled locally, each once. -/
def localReferences (m : ImportAliases) (path : String) : List String :=
  (m.entries.filterMap (spelling? path)).eraseDups

/-- The path that an entry gives to a local text. -/
def meaning? (text : String) (entry : String × String) : Option String :=
  if text = entry.2 then some entry.1
  else (afterDottedPrefix? text entry.2).map fun rest => entry.1 ++ "." ++ rest

/-- The meaning of a local text under the longest name that it starts with, the first of equal
ones; `best` is the length of the name and the path so far. -/
def resolveFrom (text : String) (best : Option (Nat × String)) :
    List (String × String) → Option (Nat × String)
  | [] => best
  | entry :: rest =>
    match meaning? text entry with
    | none => resolveFrom text best rest
    | some path =>
      if best.all fun (n, _) => n < entry.2.length then
        resolveFrom text (some (entry.2.length, path)) rest
      else resolveFrom text best rest

/-- The path that a local text refers to. -/
def resolve? (m : ImportAliases) (text : String) : Option String :=
  (resolveFrom text none m.entries).map (·.2)

end ImportAliases

namespace Imports

/-- Whether a path is made of dots only. -/
def isDotsOnly (path : List Char) : Bool := path.all (· == '.')

/-- The prefixes of a path that end before a dot, then the path itself; `front` is what has been
passed, the latest character first. -/
def dottedPrefixes (front : List Char) : List Char → List (List Char)
  | [] => [front.reverse]
  | c :: rest =>
    let more := dottedPrefixes (c :: front) rest
    if c = '.' then front.reverse :: more else more

/-- Inserts a text into a list in order, unless it is there. -/
def insertSorted (s : String) : List String → List String
  | [] => [s]
  | t :: rest =>
    if s < t then s :: t :: rest
    else if s = t then t :: rest
    else t :: insertSorted s rest

/-- Paths and the modules that contain them, in order, each once. Dots alone name nothing. -/
def expand (paths : List String) : List String :=
  ((paths.flatMap fun p => dottedPrefixes [] p.toList).filter fun p => !isDotsOnly p).foldl
    (fun acc p => insertSorted (String.ofList p) acc) []

/-- What has been recorded of imports: their paths, each once, and the local names. -/
structure Recorded where
  paths : List String
  aliases : ImportAliases
deriving Repr, BEq, DecidableEq, Inhabited

namespace Recorded

/-- No imports. -/
def empty : Recorded := ⟨[], .empty⟩

/-- Records a binding. An empty path is none. -/
def add (r : Recorded) (b : ImportBinding) : Recorded :=
  if b.path.isEmpty then r
  else
    { paths := if r.paths.contains b.path then r.paths else r.paths ++ [b.path]
      aliases :=
        match b.localName with
        | some name => r.aliases.insert b.path name
        | none => r.aliases }

end Recorded

end Imports

end SourceFacts
