/-!
# White space

The characters that the Unicode standard calls white space, and trimming by them.
-/

namespace SourceFacts.Text

/-- Whether a character is white space. -/
def isBlank (c : Char) : Bool :=
  let n := c.toNat
  (9 ≤ n && n ≤ 13) || n == 0x20 || n == 0x85 || n == 0xA0 || n == 0x1680
    || (0x2000 ≤ n && n ≤ 0x200A) || n == 0x2028 || n == 0x2029 || n == 0x202F
    || n == 0x205F || n == 0x3000

/-- Drops white space at the front. -/
def trimFront (s : List Char) : List Char := s.dropWhile isBlank

/-- Drops white space at the end. -/
def trimBack (s : List Char) : List Char := (s.reverse.dropWhile isBlank).reverse

/-- Drops white space at both ends. -/
def trim (s : List Char) : List Char := trimBack (trimFront s)

/-- Drops white space at both ends of a string. -/
def trimmed (s : String) : String := String.ofList (trim s.toList)

end SourceFacts.Text
