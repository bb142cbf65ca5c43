import SourceFacts.Detection
import SourceFacts.Json.Decode

/-!
# Detections as JSON

The fields of the form stand among those of the detection; the field `concept` says which form
it is.
-/

namespace SourceFacts

open Json (Misfit asString asNat32 asList asOption asTable gather)

namespace DetectionKind

/-- The fields of a form. -/
def jsonFields : DetectionKind → List (String × Json)
  | .decorator boundObject name receivers =>
    [("concept", .string "annotation"), ("bound_object", .ofOption .string boundObject),
     ("annotation_name", .string name), ("variable_names", .strings receivers)]
  | .call callee arguments =>
    [("concept", .string "call"), ("callee", .string callee), ("args_text", .string arguments)]
  | .inheritance subclass superclass =>
    [("concept", .string "inheritance"), ("subclass", .string subclass),
     ("superclass", .string superclass)]

/-- The name of a form; the number of a form stands for it too. -/
def nameOfTag : Json → Except Misfit String
  | .string s => .ok s
  | .int 0 => .ok "annotation"
  | .int 1 => .ok "call"
  | .int 2 => .ok "inheritance"
  | _ => .error .wrongType

/-- The form that fields describe. -/
def ofFields (given : List (String × Json)) : Except Misfit DetectionKind := do
  let tags ← gather [["concept"]] given
  let some tag := (tags.head?).bind (·.2) | throw (.missing "concept")
  let record (names : List String) : Except Misfit Json.Record := do
    return ⟨← gather (names.map fun n => [n]) given, false⟩
  match ← nameOfTag tag with
  | "annotation" =>
    let r ← record ["bound_object", "annotation_name", "variable_names"]
    return .decorator (← r.optional "bound_object" asString)
      (← r.required "annotation_name" asString) (← r.required "variable_names" (asList asString))
  | "call" =>
    let r ← record ["callee", "args_text"]
    return .call (← r.required "callee" asString) (← r.required "args_text" asString)
  | "inheritance" =>
    let r ← record ["subclass", "superclass"]
    return .inheritance (← r.required "subclass" asString) (← r.required "superclass" asString)
  | name => throw (.unknownName name)

end DetectionKind

namespace Detection

/-- A detection as it is written down; what depends on its kind stands last. -/
def toJson (d : Detection) : Json :=
  .object ([
    ("feature_key", .string d.featureKey), ("library", .string d.library),
    ("match_text", .string d.matchText), ("start_line", .nat d.startLine),
    ("end_line", .nat d.endLine)] ++
    (if d.metadata.isEmpty then []
      else [("metadata", .object (d.metadata.entries.map fun (k, v) => (k, .string v)))]) ++
    d.kind.jsonFields)

/-- How deep a detection may nest. -/
def nestLimit : Nat := 127

/-- The names of the fields that are not part of the form. -/
def ownFields : List String :=
  ["feature_key", "library", "match_text", "start_line", "end_line", "metadata"]

/-- Reads a detection. -/
def ofJson : Json → Except Misfit Detection
  | .object given => do
    let r : Json.Record := ⟨← gather (ownFields.map fun n => [n]) given, false⟩
    let others := given.filter fun (k, _) => !ownFields.contains k
    if !Json.fieldsAreSound (nestLimit - 1) others then throw .wrongType
    return {
      featureKey := ← r.required "feature_key" asString
      library := ← r.required "library" asString
      matchText := ← r.required "match_text" asString
      startLine := ← r.required "start_line" asNat32
      endLine := ← r.required "end_line" asNat32
      metadata := ← r.withDefault "metadata" .empty (asTable asString)
      kind := ← DetectionKind.ofFields others }
  | _ => .error .wrongType

end Detection

end SourceFacts
