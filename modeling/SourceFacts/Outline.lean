/-!
# Outlines

The outline of a file lists its classes and functions, and the calls that each function makes.
-/

namespace SourceFacts

/-- A call made in the body of a function. -/
structure CallRef where
  /-- What the call is made on, if anything. -/
  receiver : Option String
  name : String
  line : Nat
deriving Repr, BEq, DecidableEq, Inhabited

/-- A function or method. -/
structure FunctionOutline where
  name : String
  /-- For a method, the name after that of its class and a dot. -/
  qualifiedName : String
  parentClass : Option String
  /-- Decorators without the leading at sign. -/
  decorators : List String
  /-- The calls of the body in source order, without those of inner definitions. -/
  calls : List CallRef
  isAsync : Bool
  /-- The first line, decorators included. -/
  startLine : Nat
  endLine : Nat
deriving Repr, BEq, DecidableEq, Inhabited

/-- A function that is only known by its name and calls. -/
def FunctionOutline.named (name : String) (calls : List CallRef) : FunctionOutline :=
  { name, qualifiedName := name, parentClass := none, decorators := [], calls, isAsync := false,
    startLine := 0, endLine := 0 }

/-- A class with its methods. -/
structure ClassOutline where
  name : String
  /-- Base class expressions as they are written. -/
  bases : List String
  decorators : List String
  startLine : Nat
  endLine : Nat
  methods : List FunctionOutline
deriving Repr, BEq, DecidableEq, Inhabited

/-- The outline of a file. -/
structure Outline where
  classes : List ClassOutline
  functions : List FunctionOutline
deriving Repr, BEq, DecidableEq, Inhabited

namespace Outline

/-- The outline of a file without classes and functions. -/
def empty : Outline := ⟨[], []⟩

/-- Whether there is nothing to outline. -/
def isEmpty (o : Outline) : Bool := o.classes.isEmpty && o.functions.isEmpty

/-- The first class with the given name. -/
def class? (o : Outline) (name : String) : Option ClassOutline :=
  o.classes.find? (·.name == name)

end Outline

end SourceFacts
