import SourceFacts.Language
import SourceFacts.Table

/-!
# Features

A feature is a way in which a library shows in source code: a decorator, a call or a base class
that goes back to one of its paths. Catalogs list features; a library and a key identify one.
-/

namespace SourceFacts

/-- What a feature attaches to. -/
inductive TargetLevel where
  | function | type
deriving Repr, BEq, DecidableEq, Inhabited

/-- The name of a level. -/
def TargetLevel.name : TargetLevel → String
  | .function => "function"
  | .type => "class"

/-- The shape in which a feature shows. -/
inductive Concept where
  /-- A decorator. -/
  | decorator
  /-- A call. -/
  | call
  /-- A base class. -/
  | inheritance
deriving Repr, BEq, DecidableEq, Inhabited

/-- The name of a concept. -/
def Concept.name : Concept → String
  | .decorator => "annotation"
  | .call => "call"
  | .inheritance => "inheritance"

/-- How uses of a feature go back to an import. -/
inductive LocatorStrategy where
  /-- Through a module variable that holds the result of calling what was imported. -/
  | variableBound
  /-- Through what was imported, or a member of it. -/
  | direct
deriving Repr, BEq, DecidableEq, Inhabited

/-- The name of a strategy. -/
def LocatorStrategy.name : LocatorStrategy → String
  | .variableBound => "variable_bound"
  | .direct => "direct"

/-- Regular expressions that narrow down where a feature shows. One that is absent admits
anything. -/
structure ConstructQuery where
  /-- The member called on a receiver. -/
  method : Option String
  /-- The last name of a decorator. -/
  decoratorName : Option String
  /-- The whole of what is called. -/
  callee : Option String
  /-- The whole of a base class expression. -/
  superclass : Option String
deriving Repr, BEq, DecidableEq, Inhabited

/-- Whether nothing is narrowed down. -/
def ConstructQuery.isEmpty (q : ConstructQuery) : Bool :=
  q.method.isNone && q.decoratorName.isNone && q.callee.isNone && q.superclass.isNone

/-- An entry of a catalog. -/
structure Feature where
  key : String
  library : String
  /-- Full paths of what has to be imported, any one of which will do. -/
  paths : List String
  target : TargetLevel
  concept : Concept
  strategy : LocatorStrategy
  /-- What narrows the feature down, by language family. -/
  constructs : Option (Table ConstructQuery)
  description : String
  /-- Whether uses of the feature are entry points of a program. -/
  startpoint : Bool
deriving Repr, BEq, DecidableEq, Inhabited

namespace Feature

/-- Why a catalog entry is refused. -/
inductive Fault where
  | emptyKey
  | emptyLibrary (key : String)
  | noPaths (key : String)
  | emptyPath (key : String)
deriving Repr, BEq, DecidableEq, Inhabited

/-- The text of a fault. -/
def Fault.message : Fault → String
  | .emptyKey => "feature key is empty"
  | .emptyLibrary key => "feature '" ++ key ++ "' has no library"
  | .noPaths key => "feature '" ++ key ++ "' declares no absolute paths"
  | .emptyPath key => "feature '" ++ key ++ "' declares an empty absolute path"

/-- Whether a text has nothing but white space. -/
def isBlank (s : String) : Bool := s.toList.all Text.isBlank

/-- The first fault of an entry. -/
def fault? (f : Feature) : Option Fault :=
  if isBlank f.key then some .emptyKey
  else if isBlank f.library then some (.emptyLibrary f.key)
  else if f.paths.isEmpty then some (.noPaths f.key)
  else if f.paths.any isBlank then some (.emptyPath f.key)
  else none

/-- What narrows a feature down in a language family. -/
def constructsFor (f : Feature) (family : Family) : Option ConstructQuery :=
  f.constructs.bind (·.get? family.name)

end Feature

/-- A file of a catalog: the features of one library in one language. -/
structure CatalogFile where
  version : Nat
  language : String
  library : String
  features : List Feature
deriving Repr, BEq, DecidableEq, Inhabited

/-- The features of a file; those that name no library belong to that of the file. -/
def CatalogFile.entries (c : CatalogFile) : List Feature :=
  c.features.map fun f => if f.library.isEmpty then { f with library := c.library } else f

end SourceFacts
