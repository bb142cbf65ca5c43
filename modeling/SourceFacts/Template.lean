import SourceFacts.Error
import SourceFacts.Feature
import SourceFacts.Files.Tree
import SourceFacts.Template.Builtin

/-!
# Query templates

There is one template for each shape that a feature can have, in each language family. A set of
templates either comes with the library or is read from a directory.
-/

namespace SourceFacts

/-- A query template. -/
inductive Template where
  | decoratorClass | decoratorFunction | callExpression | inheritance
deriving Repr, BEq, DecidableEq, Inhabited

namespace Template

/-- All templates. -/
def all : List Template := [.decoratorClass, .decoratorFunction, .callExpression, .inheritance]

/-- The name of a template. -/
def name : Template → String
  | .decoratorClass => "annotation_class"
  | .decoratorFunction => "annotation_function"
  | .callExpression => "call_expression"
  | .inheritance => "inheritance"

/-- The name of the file that holds a template. -/
def fileName (t : Template) : String := t.name ++ ".scm"

/-- The template with the given name. -/
def ofName? (name : String) : Option Template := all.find? (·.name == name)

/-- The template for a shape. Functions inherit from nothing. -/
def select (concept : Concept) (target : TargetLevel) : Except ConfigError Template :=
  match concept, target with
  | .decorator, .type => .ok .decoratorClass
  | .decorator, .function => .ok .decoratorFunction
  | .call, _ => .ok .callExpression
  | .inheritance, .type => .ok .inheritance
  | .inheritance, .function => .error (.unsupportedCombination "inheritance" "function")

/-- The text of a template that comes with the library. -/
def builtinText (family : Family) (t : Template) : String :=
  match family, t with
  | .python, .decoratorClass => BuiltinQuery.pythonDecoratorClass
  | .python, .decoratorFunction => BuiltinQuery.pythonDecoratorFunction
  | .python, .callExpression => BuiltinQuery.pythonCallExpression
  | .python, .inheritance => BuiltinQuery.pythonInheritance
  | .typescript, .decoratorClass => BuiltinQuery.typescriptDecoratorClass
  | .typescript, .decoratorFunction => BuiltinQuery.typescriptDecoratorFunction
  | .typescript, .callExpression => BuiltinQuery.typescriptCallExpression
  | .typescript, .inheritance => BuiltinQuery.typescriptInheritance

end Template

/-- The templates of one language family. -/
structure TemplateSet where
  family : String
  decoratorClass : String
  decoratorFunction : String
  callExpression : String
  inheritance : String
deriving Repr, BEq, DecidableEq, Inhabited

namespace TemplateSet

/-- The text of a template. -/
def text (s : TemplateSet) : Template → String
  | .decoratorClass => s.decoratorClass
  | .decoratorFunction => s.decoratorFunction
  | .callExpression => s.callExpression
  | .inheritance => s.inheritance

/-- The set of the texts that a function finds, which fails with the first it does not find. -/
def collect {ε : Type} (family : String) (find : Template → Except ε String) :
    Except ε TemplateSet := do
  return {
    family
    decoratorClass := ← find .decoratorClass
    decoratorFunction := ← find .decoratorFunction
    callExpression := ← find .callExpression
    inheritance := ← find .inheritance }

/-- The templates that come with the library. -/
def builtin (family : Family) : TemplateSet :=
  { family := family.name
    decoratorClass := Template.builtinText family .decoratorClass
    decoratorFunction := Template.builtinText family .decoratorFunction
    callExpression := Template.builtinText family .callExpression
    inheritance := Template.builtinText family .inheritance }

/-- The templates of a family by its name, if the library has any. -/
def builtinOf (family : String) : Except ConfigError TemplateSet :=
  match Family.ofName? family with
  | some f => .ok (builtin f)
  | none => .error (.unsupportedLanguage family)

/-- The path of a template in a directory of queries. -/
def path (directory family : String) (t : Template) : String :=
  Path.join (Path.join directory family) t.fileName

/-- The templates in a directory of queries. All of them have to be there. -/
def load (fs : FileSystem) (directory family : String) : Except ConfigError TemplateSet :=
  collect family fun t =>
    match fs.readText (path directory family t) with
    | .ok s => .ok s
    | .error _ => .error (.missingQueryFile (path directory family t))

end TemplateSet

end SourceFacts
