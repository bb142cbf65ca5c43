import SourceFacts.Catalog.Builtin
import SourceFacts.Error
import SourceFacts.Feature.Json
import SourceFacts.Files.Tree

/-!
# Catalogs

A catalog lists features by language family. Within a family, library and key identify a
feature: a second one is refused, and so are entries with a fault and files that cannot be read.
Refusals are collected and do not stop the loading.
-/

namespace SourceFacts

/-- Features by language family. -/
structure Catalog where
  python : List Feature
  typescript : List Feature
deriving Repr, BEq, DecidableEq, Inhabited

namespace Catalog

/-- The catalog without features. -/
def empty : Catalog := ⟨[], []⟩

/-- The features of a family, in the order in which they were added. -/
def ofFamily (c : Catalog) : Family → List Feature
  | .python => c.python
  | .typescript => c.typescript

/-- The features that apply to a language. -/
def features (c : Catalog) (l : Language) : List Feature := c.ofFamily l.family

/-- How many features there are. -/
def size (c : Catalog) : Nat := c.python.length + c.typescript.length

/-- Adds a feature at the end. -/
def add (c : Catalog) (f : Feature) : Family → Catalog
  | .python => { c with python := c.python ++ [f] }
  | .typescript => { c with typescript := c.typescript ++ [f] }

/-- Whether two features have the same library and key. -/
def sameEntry (f g : Feature) : Bool := f.library == g.library && f.key == g.key

/-- The refusal of a feature. -/
def refusal (f : Feature) (reason : String) : ConfigError :=
  .invalidCatalogEntry f.library f.key reason

/-- Adds a feature unless its entry is taken. -/
def insert (c : Catalog) (family : Family) (f : Feature) : Except ConfigError Catalog :=
  if (c.ofFamily family).any (sameEntry f) then
    .error (refusal f ("duplicate feature in language '" ++ family.name ++ "'"))
  else .ok (c.add f family)

end Catalog

/-- A catalog, and what was refused while it was loaded, in order. -/
structure CatalogLoad where
  catalog : Catalog
  refused : List ConfigError
deriving Repr, BEq, DecidableEq, Inhabited

namespace CatalogLoad

/-- Nothing has been loaded yet. -/
def empty : CatalogLoad := ⟨.empty, []⟩

/-- Notes a refusal. -/
def refuse (l : CatalogLoad) (e : ConfigError) : CatalogLoad :=
  { l with refused := l.refused ++ [e] }

/-- Adds a feature, or notes its refusal. -/
def insert (l : CatalogLoad) (family : Family) (f : Feature) : CatalogLoad :=
  match l.catalog.insert family f with
  | .ok c => { l with catalog := c }
  | .error e => l.refuse e

/-- Adds the features of a file one after the other; `seen` are those met before in it. -/
def addEntries (path : String) (family : Family) :
    (seen : List Feature) → List Feature → CatalogLoad → CatalogLoad
  | _, [], l => l
  | seen, f :: rest, l =>
    match f.fault? with
    | some fault => addEntries path family seen rest (l.refuse (Catalog.refusal f fault.message))
    | none =>
      if seen.any (Catalog.sameEntry f) then
        addEntries path family seen rest
          (l.refuse (Catalog.refusal f ("duplicate feature in " ++ path)))
      else addEntries path family (f :: seen) rest (l.insert family f)

/-- Adds a file. -/
def addFile (path : String) (file : CatalogFile) (l : CatalogLoad) : CatalogLoad :=
  match Language.ofName? file.language with
  | none =>
    l.refuse (.malformedCatalog path ("unsupported language '" ++ file.language ++ "'"))
  | some language => addEntries path language.family [] file.entries l

/-- Adds a file, given its text. -/
def addText (path text : String) (l : CatalogLoad) : CatalogLoad :=
  match Json.decode CatalogFile.ofJson text with
  | .error _ => l.refuse (.malformedCatalog path "the text is not a catalog")
  | .ok file => addFile path file l

/-- Adds a file, given its content. -/
def addContent (path : String) (content : ByteArray) (l : CatalogLoad) : CatalogLoad :=
  match Text.Utf8.decode content with
  | .error _ => l.refuse (.malformedCatalog path FileFault.notText.message)
  | .ok text => addText path text l

end CatalogLoad

namespace Catalog

/-- The catalog that comes with the library. -/
def builtin : CatalogLoad :=
  BuiltinCatalog.files.foldl (fun l file => l.addFile file.library file) .empty

/-- The catalog in the JSON files below a directory. -/
def loadDirectory (fs : FileSystem) (path : String) : Except ConfigError CatalogLoad :=
  match fs.resolve path with
  | .ok (_, .directory entries) =>
    let files := FileTree.filesIn (fun _ _ => true) path entries
    .ok ((files.filter fun (p, _) => Path.extension? p == some "json").foldl
      (fun l (p, content) => l.addContent p content) .empty)
  | _ => .error (.malformedCatalog path "not a directory")

/-- Adds what was loaded, Python first. The refusals are those of the load, then new ones. -/
def merge (c : Catalog) (l : CatalogLoad) : CatalogLoad :=
  let addAll (family : Family) (into : CatalogLoad) : CatalogLoad :=
    (l.catalog.ofFamily family).foldl (fun into f => into.insert family f) into
  addAll .typescript (addAll .python ⟨c, l.refused⟩)

end Catalog

end SourceFacts
