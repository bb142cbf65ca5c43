import SourceFacts.CommandLine

/-!
# The program

Takes a snapshot of the files that the arguments and the configuration name, and prints what
the command says about them.
-/

namespace SourceFacts.Program

/-- How much of what is at a path goes into a snapshot. -/
inductive Reach where
  /-- A file, or the files in a directory. -/
  | near
  /-- All that is below. -/
  | far
  /-- All that is below, except in directories that are not scanned. -/
  | scanned
deriving BEq

/-- Whether a directory in a directory is gone into. -/
def Reach.enters (r : Reach) (name : String) : Bool :=
  match r with
  | .near => false
  | .far => true
  | .scanned => !Command.skippedDirectories.contains name

/-- Puts an entry into a list of entries, in order of names. -/
def insertEntry (entries : List (String × FileTree)) (entry : String × FileTree) :
    List (String × FileTree) :=
  Table.setIn entry.1 entry.2 entries

/-- What is at a path. -/
partial def treeAt (reach : Reach) (path : String) : IO FileTree := do
  let place := System.mkFilePath [path]
  match (← place.symlinkMetadata).type with
  | .file =>
    try return .file (← IO.FS.readBinFile path) catch _ => return .other
  | .dir =>
    let mut entries := []
    for e in ← place.readDir do
      let inner := Path.join path e.fileName
      let isDirectory ← (System.mkFilePath [inner]).isDir
      let t ← if isDirectory && !reach.enters e.fileName then pure FileTree.empty
        else treeAt reach inner
      entries := insertEntry entries (e.fileName, t)
    return .directory entries
  | _ => return .other

/-- Adds what is at a path, and the directories on the way to it. What is not there is left
out. -/
def addPath (here : List String) (fs : FileSystem) (path : String × Reach) : IO FileSystem := do
  let steps := FileSystem.steps path.1
  let names := if Path.isAbsolute path.1 then steps else here ++ steps
  let mut tree := fs.root
  let mut real : List String := []
  for name in names do
    let place := FileSystem.absolute (real ++ [name])
    try
      real := FileSystem.steps (← IO.FS.realPath place).toString
      if ← (System.mkFilePath [place]).isDir then
        if let .error _ := FileSystem.resolve ⟨tree, []⟩ (FileSystem.absolute real) then
          tree := FileTree.put .empty real tree
    catch _ => return { fs with root := tree }
  try
    tree := FileTree.put (← treeAt path.2 (FileSystem.absolute real)) real tree
  catch _ => pure ()
  return { fs with root := tree }

/-- The paths that a command looks at. -/
def pathsOf : Command → List (String × Reach)
  | .scan path => [(path, .scanned)]
  | .manager directory _ root => [(Path.join root directory, .near)]
  | .outline path => [(path, .near)]

/-- The paths that a configuration names. -/
def configuredPaths (c : Config) : List (String × Reach) :=
  (c.queriesDirectory.toList ++ c.catalogDirectory.toList).map (·, .far) ++
    c.managerRules.toList.map (·, .near)

/-- A snapshot of what arguments and configuration name. -/
def snapshot (e : Environment) (arguments : List String) : IO FileSystem := do
  let here := FileSystem.steps (← IO.currentDir).toString
  let start : FileSystem := ⟨FileTree.put .empty here .empty, here⟩
  let fs ← [Environment.fileName, Config.fileName].foldlM
    (fun fs path => addPath here fs (path, .near)) start
  match Invocation.ofArguments arguments with
  | .error _ => return fs
  | .ok i =>
    let e := (e.withFile fs).1
    let named := i.config.toList ++ (e.get? Config.environmentName).toList
    let fs ← (named.map (·, Reach.near)).foldlM (addPath here) fs
    let configured := match i.configuration fs e with
      | .ok c => configuredPaths c
      | .error _ => []
    (pathsOf i.command ++ configured).foldlM (addPath here) fs

end SourceFacts.Program

open SourceFacts in
/-- Runs the program. -/
def main (arguments : List String) : IO UInt32 := do
  let settings := (← IO.getEnv Config.environmentName).toList.map
    fun value => (Config.environmentName, value)
  let e : Environment := ⟨settings⟩
  let fs ← Program.snapshot e arguments
  let o := Invocation.outcome fs e arguments
  IO.print o.output
  IO.eprint o.errors
  return UInt32.ofNat o.exitCode
