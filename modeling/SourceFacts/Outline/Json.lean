import SourceFacts.Json.Decode
import SourceFacts.Outline

/-!
# Outlines as JSON
-/

namespace SourceFacts

open Json (Misfit asString asBool asNat32 asList asRecord)

/-- A call as it is written down. -/
def CallRef.toJson (c : CallRef) : Json :=
  .object [("receiver", .ofOption .string c.receiver), ("name", .string c.name),
    ("line", .nat c.line)]

/-- Reads a call. -/
def CallRef.ofJson (j : Json) : Except Misfit CallRef := do
  let r ← asRecord [["receiver"], ["name"], ["line"]] j
  return {
    receiver := ← r.optional "receiver" asString
    name := ← r.required "name" asString
    line := ← r.required "line" asNat32 }

/-- A function as it is written down. -/
def FunctionOutline.toJson (f : FunctionOutline) : Json :=
  .object [("name", .string f.name), ("qualified_name", .string f.qualifiedName),
    ("parent_class", .ofOption .string f.parentClass), ("decorators", .strings f.decorators),
    ("calls", .list (f.calls.map CallRef.toJson)), ("is_async", .bool f.isAsync),
    ("start_line", .nat f.startLine), ("end_line", .nat f.endLine)]

/-- Reads a function. -/
def FunctionOutline.ofJson (j : Json) : Except Misfit FunctionOutline := do
  let r ← asRecord [["name"], ["qualified_name"], ["parent_class"], ["decorators"], ["calls"],
    ["is_async"], ["start_line"], ["end_line"]] j
  return {
    name := ← r.required "name" asString
    qualifiedName := ← r.required "qualified_name" asString
    parentClass := ← r.optional "parent_class" asString
    decorators := ← r.required "decorators" (asList asString)
    calls := ← r.required "calls" (asList CallRef.ofJson)
    isAsync := ← r.required "is_async" asBool
    startLine := ← r.required "start_line" asNat32
    endLine := ← r.required "end_line" asNat32 }

/-- A class as it is written down. -/
def ClassOutline.toJson (c : ClassOutline) : Json :=
  .object [("name", .string c.name), ("bases", .strings c.bases),
    ("decorators", .strings c.decorators), ("start_line", .nat c.startLine),
    ("end_line", .nat c.endLine), ("methods", .list (c.methods.map FunctionOutline.toJson))]

/-- Reads a class. -/
def ClassOutline.ofJson (j : Json) : Except Misfit ClassOutline := do
  let r ← asRecord [["name"], ["bases"], ["decorators"], ["start_line"], ["end_line"],
    ["methods"]] j
  return {
    name := ← r.required "name" asString
    bases := ← r.required "bases" (asList asString)
    decorators := ← r.required "decorators" (asList asString)
    startLine := ← r.required "start_line" asNat32
    endLine := ← r.required "end_line" asNat32
    methods := ← r.required "methods" (asList FunctionOutline.ofJson) }

/-- An outline as it is written down. -/
def Outline.toJson (o : Outline) : Json :=
  .object [("classes", .list (o.classes.map ClassOutline.toJson)),
    ("functions", .list (o.functions.map FunctionOutline.toJson))]

/-- Reads an outline. -/
def Outline.ofJson (j : Json) : Except Misfit Outline := do
  let r ← asRecord [["classes"], ["functions"]] j
  return {
    classes := ← r.required "classes" (asList ClassOutline.ofJson)
    functions := ← r.required "functions" (asList FunctionOutline.ofJson) }

end SourceFacts
