import SourceFacts.Error
import SourceFacts.Files.Tree
import SourceFacts.Json.Decode
import SourceFacts.Toml.Reader

/-!
# Configuration

What can be set in a configuration file, and which file it is read from. Relative paths in a
file start from the directory of the file.
-/

namespace SourceFacts

open Json (Misfit asString asBool asOption asRecord)

/-- The configuration of an engine. -/
structure Config where
  /-- A directory of templates in place of those that come with the library. -/
  queriesDirectory : Option String
  /-- A directory of further catalog files. -/
  catalogDirectory : Option String
  /-- A file of package manager rules in place of those that come with the library. -/
  managerRules : Option String
  includeBuiltinCatalog : Bool
  /-- How many files to work on at a time; if not set, as many as the machine can. -/
  concurrency : Option Nat
deriving Repr, BEq, DecidableEq, Inhabited

namespace Config

/-- The configuration in which nothing is set. -/
def default : Config := ⟨none, none, none, true, none⟩

/-- The names of the settings. -/
def settings : List String :=
  ["queries_dir", "catalog_dir", "package_manager_rules", "include_builtin_catalog",
   "concurrency"]

/-- A natural number of at most 64 bits. -/
def asCount : Json → Except Misfit Nat
  | .int n => if 0 ≤ n && n < UInt64.size then .ok n.toNat else .error .outOfRange
  | _ => .error .wrongType

/-- The configuration that settings describe. There are no settings but the known ones. -/
def ofJson (j : Json) : Except Misfit Config := do
  if let .object fields := j then
    if let some (name, _) := fields.find? fun (k, _) => !settings.contains k then
      throw (.unknownName name)
  let r ← asRecord (settings.map fun s => [s]) j
  return {
    queriesDirectory := ← r.withDefault "queries_dir" none (asOption asString)
    catalogDirectory := ← r.withDefault "catalog_dir" none (asOption asString)
    managerRules := ← r.withDefault "package_manager_rules" none (asOption asString)
    includeBuiltinCatalog := ← r.withDefault "include_builtin_catalog" true asBool
    concurrency := ← r.withDefault "concurrency" none fun j => some <$> asCount j }

/-- Changes all paths. -/
def mapPaths (f : String → String) (c : Config) : Config :=
  { c with
    queriesDirectory := c.queriesDirectory.map f
    catalogDirectory := c.catalogDirectory.map f
    managerRules := c.managerRules.map f }

/-- Why a text cannot be used as a configuration. -/
inductive Fault where
  | notToml
  | badSettings
  /-- No work would ever be done. -/
  | noConcurrency
deriving Repr, BEq, DecidableEq, Inhabited

/-- The text of a fault. -/
def Fault.message : Fault → String
  | .notToml => "the text is not TOML"
  | .badSettings => "the text is not a configuration"
  | .noConcurrency => "concurrency must be at least 1"

/-- The configuration in a TOML text. -/
def ofText (text : String) : Except Fault Config :=
  match Toml.ofText text with
  | .error _ => .error .notToml
  | .ok j =>
    match ofJson j with
    | .error _ => .error .badSettings
    | .ok c => if c.concurrency = some 0 then .error .noConcurrency else .ok c

/-- The configuration in a file. -/
def load (fs : FileSystem) (path : String) : Except ConfigError Config :=
  match fs.readText path with
  | .error fault => .error (.malformedConfig path fault.message)
  | .ok text =>
    match ofText text with
    | .error fault => .error (.malformedConfig path fault.message)
    | .ok c => .ok (c.mapPaths (Path.join ((Path.parent? path).getD ".")))

/-- The variable of the environment that can name a configuration file. -/
def environmentName : String := "PROSPECTOR_CONFIG"

/-- The configuration file that is looked for in the current directory. -/
def fileName : String := "prospector.toml"

/-- The configuration in force: that in a file given explicitly, else in one that the
environment names, else in one in the current directory, else the default. -/
def resolve (fs : FileSystem) (environment explicit : Option String) :
    Except ConfigError Config :=
  match explicit, environment with
  | some path, _ => load fs path
  | none, some path => load fs path
  | none, none => if fs.isFile fileName then load fs fileName else .ok default

/-- The settings, concurrency aside. -/
def toJson (c : Config) : Json :=
  .object [("queries_dir", .ofOption .string c.queriesDirectory),
    ("catalog_dir", .ofOption .string c.catalogDirectory),
    ("package_manager_rules", .ofOption .string c.managerRules),
    ("include_builtin_catalog", .bool c.includeBuiltinCatalog)]

end Config

end SourceFacts
