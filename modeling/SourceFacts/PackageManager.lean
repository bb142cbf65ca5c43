import SourceFacts.Error
import SourceFacts.Files.Tree
import SourceFacts.Glob
import SourceFacts.Json.Decode
import SourceFacts.Language
import SourceFacts.Text.Part
import SourceFacts.Toml.Reader

/-!
# Package managers

Tells the package manager of a directory from the files in it. Each language family has an
ordered list of rules, and the first rule with a signature that matches names the manager.
-/

namespace SourceFacts

open Json (Misfit asString asList asOption asTable asRecord)

/-- One way of recognising a package manager. Globs are given as a `γ`. -/
inductive Signature (γ : Type) where
  /-- A file of this name is there, and its text has the one part and lacks the other. -/
  | file (name : String) (contains excludes : Option String)
  /-- The name of some file fits a glob. -/
  | glob (pattern : γ)
deriving Repr, BEq, Inhabited

/-- A package manager with the ways of recognising it. -/
structure ManagerRule (γ : Type) where
  manager : String
  signatures : List (Signature γ)
deriving Repr, BEq, Inhabited

/-- A glob with its text. -/
structure NamedGlob where
  text : String
  glob : Glob
deriving Inhabited

/-! ## Matching -/

/-- The files of a directory, as far as rules see them. -/
structure Listing where
  fs : FileSystem
  /-- The path of the directory. -/
  directory : String
  /-- The names of the files in it. -/
  names : List String

/-- Whether a text has a part, if one is asked for. -/
def hasPart (text : String) (part : Option String) : Bool := part.all (Text.occursIn · text)

/-- Whether a text lacks a part, if one is refused. -/
def lacksPart (text : String) (part : Option String) : Bool :=
  part.all fun p => !Text.occursIn p text

/-- Whether a signature matches. A file is read only if its text matters, and one that cannot be
read does not match. -/
def Signature.isMet (l : Listing) : Signature NamedGlob → Bool
  | .glob g => l.names.any g.glob.accepts
  | .file name contains excludes =>
    l.names.contains name &&
      ((contains.isNone && excludes.isNone) ||
        match l.fs.readText (Path.join l.directory name) with
        | .ok text => hasPart text contains && lacksPart text excludes
        | .error _ => false)

/-- Whether any signature of a rule matches. -/
def ManagerRule.isMet (l : Listing) (r : ManagerRule NamedGlob) : Bool :=
  r.signatures.any (·.isMet l)

/-! ## Reading -/

/-- The glob with the given text. -/
def NamedGlob.ofText (text : String) : Except ConfigError NamedGlob :=
  match Glob.ofText text with
  | .ok glob => .ok ⟨text, glob⟩
  | .error fault => .error (.invalidGlob text fault.message)

/-- The signature with its glob read. -/
def Signature.readGlob : Signature String → Except ConfigError (Signature NamedGlob)
  | .file name contains excludes => .ok (.file name contains excludes)
  | .glob text => do return .glob (← NamedGlob.ofText text)

/-- The rule with its globs read. -/
def ManagerRule.readGlobs (r : ManagerRule String) : Except ConfigError (ManagerRule NamedGlob) :=
  do return ⟨r.manager, ← r.signatures.mapM Signature.readGlob⟩

/-- A signature that names a file. -/
def Signature.fileOfJson (j : Json) : Except Misfit (Signature String) := do
  let r ← asRecord [["file"], ["contains"], ["excludes"]] j
  return .file (← r.required "file" asString)
    (← r.withDefault "contains" none (asOption asString))
    (← r.withDefault "excludes" none (asOption asString))

/-- A signature that gives a glob. -/
def Signature.globOfJson (j : Json) : Except Misfit (Signature String) := do
  let r ← asRecord [["glob"]] j
  return .glob (← r.required "glob" asString)

/-- A signature: one that names a file if it can be read so, else one that gives a glob. -/
def Signature.ofJson (j : Json) : Except Misfit (Signature String) :=
  match j with
  | .object _ =>
    match fileOfJson j with
    | .ok s => .ok s
    | .error _ => globOfJson j
  | _ => .error .wrongType

/-- What counts of a record given as a list: no more than its fields. -/
def listedFields (count : Nat) : Json → Json
  | .list items => .list (items.take count)
  | j => j

/-- Reads a rule. -/
def ManagerRule.ofJson (j : Json) : Except Misfit (ManagerRule String) := do
  let r ← asRecord [["manager"], ["signatures"]] (listedFields 2 j)
  return ⟨← r.required "manager" asString, ← r.required "signatures" (asList Signature.ofJson)⟩

/-- The rules of each language family. -/
structure RuleTable where
  families : List (Family × List (ManagerRule NamedGlob))
deriving Inhabited

namespace RuleTable

/-- The rules of a language. Of several lists for its family the latest counts. -/
def rules (t : RuleTable) (l : Language) : List (ManagerRule NamedGlob) :=
  ((t.families.find? (·.1 == l.family)).map (·.2)).getD []

/-- Reads the rules under each language name, in order; names of one family replace each
other. -/
def ofDrafts : List (String × List (ManagerRule String)) → RuleTable → Except ConfigError RuleTable
  | [], t => .ok t
  | (name, drafts) :: rest, t =>
    match Language.ofName? name with
    | none => .error (.unsupportedLanguage name)
    | some l => do
      let rules ← drafts.mapM ManagerRule.readGlobs
      ofDrafts rest ⟨(l.family, rules) :: t.families⟩

/-- The rules in a TOML text: under the name of a language, a list of rules. -/
def ofText (text : String) : Except ConfigError RuleTable :=
  match Toml.ofText text with
  | .error _ => .error (.malformedRuleTable "the text is not TOML")
  | .ok j =>
    match asTable (asList ManagerRule.ofJson) j with
    | .error _ => .error (.malformedRuleTable "the text is not a table of rules")
    | .ok drafts => ofDrafts drafts.entries ⟨[]⟩

/-- The rules in a file. -/
def load (fs : FileSystem) (path : String) : Except ConfigError RuleTable :=
  match fs.readText path with
  | .ok text => ofText text
  | .error fault => .error (.malformedRuleTable (path ++ ": " ++ fault.message))

/-- The package manager of a directory below a root, given the names of its files. -/
def manager? (t : RuleTable) (fs : FileSystem) (l : Language) (root directory : String)
    (names : List String) : Option String :=
  let listing : Listing := { fs, directory := Path.join root directory, names }
  ((t.rules l).find? (·.isMet listing)).map (·.manager)

/-! ## The rules that come with the library -/

/-- Requires that a file is there. -/
def present (name : String) : Signature String := .file name none none

/-- The rules for Python. -/
def pythonRules : List (ManagerRule String) :=
  [⟨"poetry", [present "poetry.lock", .file "pyproject.toml" (some "[tool.poetry]") none]⟩,
   ⟨"uv", [present "uv.lock", .file "pyproject.toml" (some "[tool.uv]") none]⟩,
   ⟨"pdm", [present "pdm.lock", .file "pyproject.toml" (some "[tool.pdm]") none]⟩,
   ⟨"pipenv", [present "Pipfile", present "Pipfile.lock"]⟩,
   ⟨"conda", [present "environment.yml", present "environment.yaml"]⟩,
   ⟨"pip", [.glob "requirements*.txt", present "setup.py", present "setup.cfg",
      .file "pyproject.toml" none (some "[tool.poetry]")]⟩]

/-- The rules for TypeScript. -/
def typescriptRules : List (ManagerRule String) :=
  [⟨"pnpm", [present "pnpm-lock.yaml", present "pnpm-workspace.yaml"]⟩,
   ⟨"yarn", [present "yarn.lock", present ".yarnrc.yml"]⟩,
   ⟨"bun", [.glob "bun.lock*"]⟩,
   ⟨"npm", [present "package-lock.json", present "package.json"]⟩]

/-- The rules that come with the library. -/
def builtin : Except ConfigError RuleTable :=
  ofDrafts [("python", pythonRules), ("typescript", typescriptRules)] ⟨[]⟩

end RuleTable

end SourceFacts
