import SourceFacts.Files.Path
import SourceFacts.Table
import SourceFacts.Text.Utf8

/-!
# File trees

A snapshot of files: a tree of directories, with a current directory from which relative paths
start.
-/

namespace SourceFacts

/-- A file, a directory with its entries in order of their names, or something else, such as a
link. -/
inductive FileTree where
  | file (content : ByteArray)
  | directory (entries : List (String × FileTree))
  | other
deriving Inhabited

/-- Why a file could not be read. -/
inductive FileFault where
  | notFound
  | notDirectory
  | isDirectory
  /-- The device does not offer what was asked for. -/
  | noDevice
  /-- The content is no text. -/
  | notText
deriving Repr, BEq, DecidableEq, Inhabited

/-- The text of a fault. -/
def FileFault.message : FileFault → String
  | .notFound => "No such file or directory (os error 2)"
  | .notDirectory => "Not a directory (os error 20)"
  | .isDirectory => "Is a directory (os error 21)"
  | .noDevice => "No such device (os error 19)"
  | .notText => "stream did not contain valid UTF-8"

namespace FileTree

/-- The tree without any file. -/
def empty : FileTree := .directory []

/-- The entry of a directory with the given name. -/
def entry? (t : FileTree) (name : String) : Option FileTree :=
  match t with
  | .directory entries => (entries.find? (·.1 == name)).map (·.2)
  | _ => none

/-- Puts a tree at the end of a path, making directories on the way. -/
def put (value : FileTree) : List String → FileTree → FileTree
  | [], _ => value
  | name :: rest, t =>
    let entries := match t with
      | .directory entries => entries
      | _ => []
    let inner := put value rest ((t.entry? name).getD empty)
    .directory (Table.setIn name inner entries)

/-- Removes what is at the end of a path. -/
def remove : List String → FileTree → FileTree
  | [], t => t
  | [name], .directory entries => .directory (entries.filter (·.1 != name))
  | name :: rest, .directory entries =>
    .directory (entries.map fun (k, t) => if k == name then (k, remove rest t) else (k, t))
  | _, t => t

mutual

/-- The files of a tree with their paths, directories gone through in order of names. Entries
that a test fails on are left out with all that is in them. -/
def filesAt (keep : (name : String) → FileTree → Bool) (path : String) :
    FileTree → List (String × ByteArray)
  | .file content => [(path, content)]
  | .directory entries => filesIn keep path entries
  | .other => []

/-- The files among the entries of a directory. -/
def filesIn (keep : (name : String) → FileTree → Bool) (path : String) :
    List (String × FileTree) → List (String × ByteArray)
  | [] => []
  | (name, t) :: rest =>
    if keep name t then filesAt keep (Path.join path name) t ++ filesIn keep path rest
    else filesIn keep path rest

end

mutual

/-- The tree with the entries of every directory in order of their names. -/
def inOrder : FileTree → FileTree
  | .directory entries => .directory (allInOrder entries)
  | t => t

/-- Entries in order of their names, with trees that are in order. -/
def allInOrder : List (String × FileTree) → List (String × FileTree)
  | [] => []
  | (name, t) :: rest => Table.setIn name t.inOrder (allInOrder rest)

end

end FileTree

/-- A snapshot of files, and the current directory. -/
structure FileSystem where
  root : FileTree
  /-- The names on the way from the root to the current directory. -/
  current : List String
deriving Inhabited

namespace FileSystem

/-- Follows the parts of a path. `above` are the directories passed, the nearest first, each
with the name under which the way went on. -/
def follow : List String → (above : List (String × FileTree)) → FileTree →
    Except FileFault (List String × FileTree)
  | [], above, t => .ok ((above.map (·.1)).reverse, t)
  | part :: rest, above, t =>
    match t with
    | .directory entries =>
      if part = "." then follow rest above t
      else if part = ".." then
        match above with
        | [] => follow rest [] t
        | (_, parent) :: above => follow rest above parent
      else
        match entries.find? (·.1 == part) with
        | some (_, u) => follow rest ((part, t) :: above) u
        | none => .error .notFound
    | _ => .error .notDirectory

/-- The parts of a path as they are followed; a slash at the end asks for a directory. -/
def steps (path : String) : List String :=
  let raw := (Path.splitSlashes path.toList).map String.ofList
  let named := raw.filter (!·.isEmpty)
  if raw.getLast? == some "" then named ++ ["."] else named

/-- What is at a path, and its names from the root. -/
def resolve (fs : FileSystem) (path : String) : Except FileFault (List String × FileTree) :=
  if path.isEmpty then .error .notFound
  else if Path.isAbsolute path then follow (steps path) [] fs.root
  else
    match follow fs.current [] fs.root with
    | .error e => .error e
    | .ok _ => follow (fs.current ++ steps path) [] fs.root

/-- Whether there is a file at a path. -/
def isFile (fs : FileSystem) (path : String) : Bool :=
  match fs.resolve path with
  | .ok (_, .file _) => true
  | _ => false

/-- Whether there is a directory at a path. -/
def isDirectory (fs : FileSystem) (path : String) : Bool :=
  match fs.resolve path with
  | .ok (_, .directory _) => true
  | _ => false

/-- The content of a file. -/
def read (fs : FileSystem) (path : String) : Except FileFault ByteArray :=
  match fs.resolve path with
  | .error e => .error e
  | .ok (_, .file content) => .ok content
  | .ok (_, .directory _) => .error .isDirectory
  | .ok (_, .other) => .error .notFound

/-- The text of a file. -/
def readText (fs : FileSystem) (path : String) : Except FileFault String :=
  match fs.read path with
  | .error e => .error e
  | .ok content =>
    match Text.Utf8.decode content with
    | .ok s => .ok s
    | .error _ => .error .notText

/-- The absolute path of names from the root. -/
def absolute (names : List String) : String := "/" ++ "/".intercalate names

end FileSystem

end SourceFacts
