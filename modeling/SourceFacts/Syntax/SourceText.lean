import SourceFacts.Syntax.Node

/-!
# Source text by offset

The characters of a source with the row of every offset, so that spans and slices are cheap.
-/

namespace SourceFacts.Syntax

/-- The characters of a source, and the row at which each offset lies; there is one offset
more than there are characters. -/
structure SourceText where
  chars : Array Char
  rows : Array Nat
deriving Inhabited

namespace SourceText

/-- The row of every offset of a text that starts in the given row. -/
def rowsFrom (row : Nat) : List Char → List Nat
  | [] => [row]
  | c :: rest => row :: rowsFrom (if c = '\n' then row + 1 else row) rest

/-- A text with the rows of its characters. -/
def ofString (text : String) : SourceText :=
  let chars := text.toList
  { chars := chars.toArray, rows := (rowsFrom 0 chars).toArray }

/-- How many characters the text has. -/
def size (t : SourceText) : Nat := t.chars.size

/-- The character at an offset. -/
def at? (t : SourceText) (i : Nat) : Option Char := t.chars[i]?

/-- Whether the character at an offset is the given one. -/
def has (t : SourceText) (i : Nat) (c : Char) : Bool := t.chars[i]? == some c

/-- Whether the given characters stand at an offset. -/
def hasAll (t : SourceText) (i : Nat) : List Char → Bool
  | [] => true
  | c :: rest => t.has i c && t.hasAll (i + 1) rest

/-- The span between two offsets. -/
def span (t : SourceText) (start stop : Nat) : Span :=
  { start, stop, firstRow := t.rows.getD start 0, lastRow := t.rows.getD stop 0 }

/-- The text between two offsets. -/
def slice (t : SourceText) (start stop : Nat) : String :=
  String.ofList (t.chars.extract start stop).toList

/-- The text that a node covers. -/
def textOf (t : SourceText) (n : Node) : String := t.slice n.span.start n.span.stop

/-- The first offset from `i` on whose character fails the test. -/
def skip (t : SourceText) (test : Char → Bool) (i : Nat) : Nat :=
  if h : i < t.chars.size then
    if test t.chars[i] then t.skip test (i + 1) else i
  else i
termination_by t.chars.size - i

/-- A node without children. -/
def leaf (t : SourceText) (kind : String) (named : Bool) (start stop : Nat) : Node :=
  { kind, named, role := none, span := t.span start stop, children := [] }

end SourceText

end SourceFacts.Syntax
