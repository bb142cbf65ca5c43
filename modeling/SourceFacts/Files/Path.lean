/-!
# Paths

Paths are texts whose parts are separated by slashes. Joining never tidies a path up; taking its
name, its extension or its parent looks through repeated slashes and parts that are one dot.
-/

namespace SourceFacts.Path

/-- Whether a path starts at the root. -/
def isAbsolute (path : String) : Bool := path.toList.head? == some '/'

/-- A path inside another; an absolute one stays as it is. -/
def join (base path : String) : String :=
  if isAbsolute path || base.isEmpty then path
  else if base.toList.getLast? == some '/' then base ++ path
  else base ++ "/" ++ path

/-- Splits at slashes. -/
def splitSlashes (s : List Char) : List (List Char) :=
  s.foldr (fun c parts =>
    if c = '/' then [] :: parts
    else
      match parts with
      | [] => [[c]]
      | p :: rest => (c :: p) :: rest) [[]]

/-- The parts between slashes, without those that say nothing: empty ones, and single dots that
do not come first. -/
def parts (path : String) : List String :=
  let raw := (splitSlashes path.toList).map String.ofList
  let rest := (raw.drop 1).filter fun p => !p.isEmpty && p != "."
  match raw.head? with
  | none => []
  | some first => if first.isEmpty then rest else first :: rest

/-- The last part, if it names a file or directory. -/
def name? (path : String) : Option String :=
  match (parts path).getLast? with
  | some p => if p = "." || p = ".." then none else some p
  | none => none

/-- What follows the last dot of a name, unless the dot comes first. -/
def nameExtension? (name : String) : Option String :=
  let reversed := name.toList.reverse
  let after := reversed.takeWhile (· != '.')
  match reversed.dropWhile (· != '.') with
  | [] => none
  | [_] => none
  | _ => some (String.ofList after.reverse)

/-- The extension of a path. -/
def extension? (path : String) : Option String := (name? path).bind nameExtension?

/-- Drops slashes, and parts that are one dot, at the end of a reversed path. -/
def trimEnd : (fuel : Nat) → List Char → List Char
  | 0, s => s
  | fuel + 1, s =>
    match s with
    | '/' :: c :: rest => trimEnd fuel (c :: rest)
    | '.' :: '/' :: rest => trimEnd fuel ('/' :: rest)
    | s => s

/-- The path of the directory that holds a path: what stands before its last part. -/
def parent? (path : String) : Option String :=
  if (parts path).isEmpty then none
  else
    let n := path.length + 1
    let s := trimEnd n path.toList.reverse
    let before := s.dropWhile (· != '/')
    some (String.ofList (trimEnd n before).reverse)

end SourceFacts.Path
