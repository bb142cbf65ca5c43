import SourceFacts.Text.Blank
import SourceFacts.Text.Category
import SourceFacts.Text.LetterCase

/-!
# Sets of characters

The character sets that regular expressions speak of, by how they are written down.
-/

namespace SourceFacts

/-- A set of code points. -/
inductive CharSet where
  | none
  /-- All code points from the first to the last. -/
  | range (first last : Nat)
  | word
  | digit
  | blank
  /-- The code points of any of these categories. -/
  | category (kinds : List Text.Category)
  | union (a b : CharSet)
  | meet (a b : CharSet)
  | complement (a : CharSet)
  /-- Whatever differs from a member in case only; `ascii` counts ASCII letters only. -/
  | anyCase (ascii : Bool) (a : CharSet)
deriving Repr, BEq, DecidableEq, Inhabited

namespace CharSet

/-- A single code point. -/
def one (c : Char) : CharSet := .range c.toNat c.toNat

/-- Every code point. -/
def everything : CharSet := .range 0 0x10FFFF

/-- The union of a list of sets. -/
def unions : List CharSet → CharSet
  | [] => .none
  | [a] => a
  | a :: rest => .union a (unions rest)

/-- What is in the one but not in the other. -/
def minus (a b : CharSet) : CharSet := .meet a (.complement b)

/-- What is in just one of the two. -/
def either (a b : CharSet) : CharSet := .union (minus a b) (minus b a)

/-- Whether a code point is a member. -/
def holds : CharSet → Nat → Bool
  | .none, _ => false
  | .range a b, n => a ≤ n && n ≤ b
  | .word, n => Text.isWordChar (Char.ofNat n)
  | .digit, n => Text.isDecimal (Char.ofNat n)
  | .blank, n => Text.isBlank (Char.ofNat n)
  | .category ks, n => ks.contains (Text.Category.ofCode n)
  | .union a b, n => a.holds n || b.holds n
  | .meet a b, n => a.holds n && b.holds n
  | .complement a, n => !a.holds n
  | .anyCase false a, n => (Text.caseOrbit n).any a.holds || a.holds n
  | .anyCase true a, n => a.holds n || ((Char.ofNat n).isAlpha && a.holds (n ^^^ 0x20))

end CharSet

end SourceFacts
