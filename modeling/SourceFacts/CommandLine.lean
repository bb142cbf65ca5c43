import SourceFacts.Engine
import SourceFacts.Environment

/-!
# The command line

Reads arguments and runs commands. `scan` tells the facts of every source file below a path,
`manager` the package manager of a directory, and `outline` the outline of one file.
-/

namespace SourceFacts

/-- What the program is asked to do. -/
inductive Command where
  | scan (path : String)
  | manager (directory language root : String)
  | outline (path : String)
deriving Repr, BEq, DecidableEq, Inhabited

/-- A command with the options that all commands share. -/
structure Invocation where
  /-- The path of a configuration file. -/
  config : Option String
  /-- Whether output is spread over lines. -/
  pretty : Bool
  command : Command
deriving Repr, BEq, DecidableEq, Inhabited

namespace Invocation

/-- Why arguments make up no command. -/
inductive Misuse where
  /-- Help is asked for. -/
  | help
  | wrong
deriving Repr, BEq, DecidableEq, Inhabited

/-! ## Arguments -/

/-- The options of a command, or those in front of it. -/
inductive Parameter where
  | config | verbose | pretty | language | root
deriving Repr, BEq, DecidableEq, Inhabited

namespace Parameter

/-- Whether a value follows. -/
def hasValue : Parameter → Bool
  | .config | .language | .root => true
  | .verbose | .pretty => false

/-- Whether a value may be empty: a path may not. -/
def accepts (p : Parameter) (value : String) : Bool := p == .language || !value.isEmpty

/-- The options that all commands share, by name. -/
def shared : List (String × Parameter) :=
  [("config", .config), ("verbose", .verbose), ("pretty", .pretty)]

/-- The options of a command, by name. -/
def ofCommand (name : String) : List (String × Parameter) :=
  if name = "manager" then [("language", .language), ("root", .root)] ++ shared else shared

end Parameter

/-- The arguments read so far. -/
structure Arguments where
  values : List (Parameter × String)
  positional : List String
deriving Repr, BEq, DecidableEq, Inhabited

/-- No arguments. -/
def Arguments.none : Arguments := ⟨[], []⟩

/-- The value of an option; options without values have an empty one. -/
def Arguments.get? (a : Arguments) (p : Parameter) : Option String :=
  (a.values.find? (·.1 == p)).map (·.2)

/-- Sets an option, which may be set once. -/
def Arguments.set (a : Arguments) (p : Parameter) (value : String) : Except Misuse Arguments :=
  if (a.get? p).isSome || !(p.accepts value) && p.hasValue then .error .wrong
  else .ok { a with values := a.values ++ [(p, value)] }

/-- The kinds of argument, by what they begin with. -/
inductive Shape where
  /-- Two dashes alone, after which nothing is an option. -/
  | divider
  | long (name : List Char)
  | short (letters : List Char)
  | plain
deriving Repr, BEq, DecidableEq, Inhabited

/-- The kind of an argument. A dash alone is no option. -/
def Shape.of (argument : String) : Shape :=
  match argument.toList with
  | ['-', '-'] => .divider
  | '-' :: '-' :: name => .long name
  | '-' :: c :: rest => .short (c :: rest)
  | _ => .plain

/-- Sets the options of one letter each. -/
def readLetters : List Char → Arguments → Except Misuse Arguments
  | [], a => .ok a
  | c :: rest, a =>
    if c = 'v' then do readLetters rest (← a.set .verbose "")
    else if c = 'h' then .error .help
    else .error .wrong

/-- Reads an option with a long name. A value may stand after an equals sign, or as the next
argument if that is no option. -/
def readLong (known : List (String × Parameter)) (option : List Char) (rest : List String)
    (a : Arguments) : Except Misuse (Arguments × List String) :=
  let name := String.ofList (option.takeWhile (· != '='))
  match known.lookup name, option.dropWhile (· != '=') with
  | none, _ => .error (if name = "help" && option.length = name.length then .help else .wrong)
  | some p, '=' :: value =>
    if p.hasValue then do return (← a.set p (String.ofList value), rest) else .error .wrong
  | some p, _ =>
    if p.hasValue then
      match rest with
      | value :: more =>
        if Shape.of value = .plain then do return (← a.set p value, more) else .error .wrong
      | [] => .error .wrong
    else do return (← a.set p "", rest)

/-- Reads arguments up to the first that is no option, if `stop` says so, or all of them. The
result is what was read and what is left. -/
def readArguments (known : List (String × Parameter)) (stop : Bool) :
    (fuel : Nat) → List String → Arguments → Except Misuse (Arguments × List String)
  | 0, rest, a => .ok (a, rest)
  | _, [], a => .ok (a, [])
  | fuel + 1, argument :: rest, a =>
    match Shape.of argument with
    | .divider =>
      if stop then .error .wrong
      else .ok ({ a with positional := a.positional ++ rest }, [])
    | .long option => do
      let (a, rest) ← readLong known option rest a
      readArguments known stop fuel rest a
    | .short letters => do readArguments known stop fuel rest (← readLetters letters a)
    | .plain =>
      if stop then .ok (a, argument :: rest)
      else readArguments known stop fuel rest { a with positional := a.positional ++ [argument] }

/-- The command with the given name. -/
def commandOf (name : String) (a : Arguments) : Except Misuse Command :=
  match name, a.positional with
  | "scan", [path] => .ok (.scan path)
  | "outline", [path] => .ok (.outline path)
  | "manager", [directory] =>
    .ok (.manager directory ((a.get? .language).getD "python") ((a.get? .root).getD "."))
  | _, _ => .error .wrong

/-- Reads the arguments of the program. Options that all commands share may stand before and
after the name of the command, where the latter count. -/
def ofArguments (arguments : List String) : Except Misuse Invocation := do
  let (before, rest) ←
    readArguments Parameter.shared true arguments.length arguments .none
  match rest with
  | [] => throw .wrong
  | name :: rest =>
    if name = "help" then throw .help
    if !(["scan", "manager", "outline"].contains name) then throw .wrong
    let (after, _) ← readArguments (Parameter.ofCommand name) false rest.length rest .none
    if after.positional.any String.isEmpty then throw .wrong
    return {
      config := (after.get? .config).or (before.get? .config)
      pretty := (after.get? .pretty).isSome || (before.get? .pretty).isSome
      command := ← commandOf name after }

end Invocation

/-! ## Failures -/

/-- Why a command failed: what was being done, and what caused that to fail, outermost first. -/
structure CommandFailure where
  doing : String
  causes : List String
deriving Repr, BEq, DecidableEq, Inhabited

namespace CommandFailure

/-- A text whose lines, but for the first, begin with a margin. -/
def withMargin (margin text : String) : String :=
  String.ofList (text.toList.flatMap fun c => if c = '\n' then '\n' :: margin.toList else [c])

/-- The lines of causes. Several are numbered. -/
def causeLines (causes : List String) : List String :=
  match causes with
  | [cause] => ["    " ++ withMargin "    " cause]
  | causes => causes.mapIdx fun i cause =>
      let number := toString i
      String.ofList (List.replicate (5 - number.length) ' ') ++ number ++ ": " ++
        withMargin "       " cause

/-- The text of a failure. -/
def message (f : CommandFailure) : String :=
  let cause := if f.causes.isEmpty then "" else
    "\n\nCaused by:\n" ++ "\n".intercalate (causeLines f.causes)
  "Error: " ++ f.doing ++ cause ++ "\n"

end CommandFailure

/-- The errors that make up an error of a file, outermost first. -/
def EngineError.chain : EngineError → List String
  | .io reason => [(EngineError.io reason).message, reason]
  | e => [e.message]

/-! ## Commands -/

namespace Command

/-- Directories that are not worth scanning. -/
def skippedDirectories : List String :=
  [".git", ".hg", ".venv", "venv", "__pycache__", "node_modules", "dist", "build", "target"]

/-- Whether an entry of a directory is scanned. -/
def isScanned (name : String) : FileTree → Bool
  | .directory _ => !skippedDirectories.contains name
  | _ => true

/-- The source files below a place, relative to a base: the place itself, or the directory of a
single file. Every directory is gone through in order of names. The result starts with the
base. -/
def sourcesAt (names : List String) : FileTree → String × List String
  | .file _ => (FileSystem.absolute names.dropLast, names.getLast?.toList)
  | t =>
    let found := (FileTree.filesAt isScanned "" t.inOrder).map (·.1)
    (FileSystem.absolute names,
      found.filter fun p => ((Path.extension? p).bind Language.ofExtension?).isSome)

/-- A path as it is reported. -/
def reported (path : String) : String := path.map fun c => if c = '\\' then '/' else c

/-- The report on scanned files, given by their paths relative to a base. -/
def scanReport (root : String) (results : List (String × Except EngineError FileFacts)) : Json :=
  let files := results.filterMap fun (path, result) =>
    match result with
    | .ok facts => some { facts with path := reported path }.toJson
    | .error _ => none
  let failures := results.filterMap fun (path, result) =>
    match result with
    | .ok _ => none
    | .error e =>
      some (.object [("path", .string (reported path)), ("error", .string e.message)])
  .object [("root", .string root), ("files", .list files), ("failures", .list failures)]

/-- Scans what is at a path. -/
def scanned (fs : FileSystem) (e : Engine) (path : String) : Except CommandFailure Json :=
  match fs.resolve path with
  | .error fault => .error ⟨"cannot resolve " ++ path, [fault.message]⟩
  | .ok (names, t) =>
    let (base, found) := sourcesAt names t
    let (results, _) := e.analyzeFiles fs (found.map (Path.join base)) .empty
    .ok (scanReport (FileSystem.absolute names)
      (found.zip (results.map (·.2))))

/-- The names of the files in a directory, in order. -/
def fileNames (fs : FileSystem) (path : String) : Except CommandFailure (List String) :=
  match fs.resolve path with
  | .ok (_, .directory entries) =>
    .ok (entries.filterMap fun (name, t) =>
      match t with
      | .file _ => some name
      | _ => none)
  | .ok _ => .error ⟨"cannot list " ++ path, [FileFault.notDirectory.message]⟩
  | .error fault => .error ⟨"cannot list " ++ path, [fault.message]⟩

/-- Tells the package manager of a directory. -/
def managed (fs : FileSystem) (e : Engine) (directory language root : String) :
    Except CommandFailure Json := do
  let some l := Language.ofName? language
    | throw ⟨"unsupported language '" ++ language ++ "'", []⟩
  let names ← fileNames fs (Path.join root directory)
  return .object [("directory", .string directory), ("language", .string l.name),
    ("manager", .ofOption .string (e.rules.manager? fs l root directory names))]

/-- Outlines a file. -/
def outlined (fs : FileSystem) (e : Engine) (path : String) : Except CommandFailure Json :=
  match (e.analyzeFile fs path .empty).1 with
  | .ok facts => .ok facts.outline.toJson
  | .error fault => .error ⟨"analyzing " ++ path, fault.chain⟩

/-- Runs a command. -/
def run (fs : FileSystem) (e : Engine) : Command → Except CommandFailure Json
  | .scan path => scanned fs e path
  | .manager directory language root => managed fs e directory language root
  | .outline path => outlined fs e path

end Command

/-! ## The program -/

/-- What the program leaves behind. -/
structure Outcome where
  exitCode : Nat
  output : String
  errors : String
deriving Repr, BEq, DecidableEq, Inhabited

namespace Invocation

/-- How the program is used. -/
def usage : String :=
  "Usage: prospector [--config FILE] [--verbose] [--pretty] COMMAND\n\n" ++
  "Commands:\n" ++
  "  scan PATH\n" ++
  "  manager DIR [--language LANGUAGE] [--root DIR]\n" ++
  "  outline FILE\n"

/-- The configuration in force. -/
def configuration (fs : FileSystem) (e : Environment) (i : Invocation) :
    Except CommandFailure Config :=
  match Config.resolve fs (e.get? Config.environmentName) i.config with
  | .ok c => .ok c
  | .error fault => .error ⟨"loading config", [fault.message]⟩

/-- What a command puts out. -/
def run (fs : FileSystem) (e : Environment) (i : Invocation) : Except CommandFailure String := do
  let config ← i.configuration fs e
  let engine ← match Engine.ofConfig fs config with
    | .ok engine => pure engine
    | .error fault => throw ⟨"initializing engine", [fault.message]⟩
  let report ← i.command.run fs engine
  return (if i.pretty then report.indented else report.compact) ++ "\n"

/-- Runs the program on a snapshot of files. -/
def outcome (fs : FileSystem) (e : Environment) (arguments : List String) : Outcome :=
  let (e, fault) := e.withFile fs
  let warning := (fault.map fun f =>
    "warning: " ++ Environment.fileName ++ ": " ++ f.message ++ "\n").getD ""
  match ofArguments arguments with
  | .error .help => ⟨0, usage, warning⟩
  | .error .wrong => ⟨2, "", warning ++ usage⟩
  | .ok i =>
    match i.run fs e with
    | .ok output => ⟨0, output, warning⟩
    | .error f => ⟨1, "", warning ++ f.message⟩

end Invocation

end SourceFacts
