import SourceFacts.Table

/-!
# Detections

A detection says where a feature shows in a file, and in which form.
-/

namespace SourceFacts

/-- The form in which a feature shows. -/
inductive DetectionKind where
  /-- As a decorator: its receiver, its last name, and the variables that could be receivers. -/
  | decorator (boundObject : Option String) (name : String) (receivers : List String)
  /-- As a call: what is called, and the text of the arguments. -/
  | call (callee arguments : String)
  /-- As a base class. -/
  | inheritance (subclass superclass : String)
deriving Repr, BEq, DecidableEq, Inhabited

/-- A use of a feature. Lines count from one and are both included. -/
structure Detection where
  featureKey : String
  library : String
  matchText : String
  startLine : Nat
  endLine : Nat
  metadata : Table String
  kind : DetectionKind
deriving Repr, BEq, DecidableEq, Inhabited

namespace Detection

/-- A detection without metadata; the lines may be given in either order. -/
def new (featureKey library matchText : String) (lines : Nat × Nat) (kind : DetectionKind) :
    Detection :=
  { featureKey, library, matchText, startLine := min lines.1 lines.2
    endLine := max lines.1 lines.2, metadata := .empty, kind }

/-- A detection with one more piece of metadata. -/
def withMetadata (d : Detection) (key value : String) : Detection :=
  { d with metadata := d.metadata.set key value }

/-- What two detections of the same use have in common. -/
def useKey (d : Detection) : String × Nat × Nat := (d.featureKey, d.startLine, d.endLine)

/-- Whether the use is an entry point. -/
def isStartpoint (d : Detection) : Bool := d.metadata.get? "startpoint" == some "true"

end Detection

end SourceFacts
