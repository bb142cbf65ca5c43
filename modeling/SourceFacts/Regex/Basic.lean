import SourceFacts.Regex.CharSet

/-!
# Regular expressions and where they match

A text is searched byte by byte, so that an expression may speak of single bytes as well as of
characters. The search keeps a list of expressions, any of which may match from here on;
reading a byte replaces each by what remains of it. Anchors look at the characters on either
side of the current place.
-/

namespace SourceFacts

/-- A condition on a place in a text. -/
inductive Anchor where
  | textStart | textEnd
  /-- At the start, or after a line feed; with `crlf` carriage returns end lines too. -/
  | lineStart (crlf : Bool)
  | lineEnd (crlf : Bool)
  /-- Between a word character and another one; `ascii` counts ASCII words only. -/
  | wordEdge (ascii : Bool)
  | noWordEdge (ascii : Bool)
  | wordStart (ascii : Bool)
  | wordEnd (ascii : Bool)
  | wordStartHalf (ascii : Bool)
  | wordEndHalf (ascii : Bool)
deriving Repr, BEq, DecidableEq, Inhabited

/-- A regular expression. -/
inductive Regex where
  /-- Matches nothing. -/
  | fail
  /-- Matches the empty text. -/
  | unit
  /-- Matches one character. -/
  | char (s : CharSet)
  /-- Matches one byte. -/
  | byte (s : CharSet)
  /-- Matches the given number of bytes: what is left of a character. -/
  | remainder (n : Nat)
  /-- Matches the empty text where the anchor holds. -/
  | anchor (a : Anchor)
  | seq (a b : Regex)
  | alt (a b : Regex)
  | star (a : Regex)
  /-- At least `least` times, and at most `most` times if that is given. -/
  | repeated (a : Regex) (least : Nat) (most : Option Nat)
deriving Repr, BEq, DecidableEq, Inhabited

namespace Regex

/-- A byte of a text, with the code point and the length of the character that starts there. -/
structure Cell where
  byte : Nat
  starts : Option (Nat × Nat)
deriving Repr, Inhabited

/-- The bytes of a character. -/
def cellsOf (c : Char) : List Cell :=
  match String.utf8EncodeChar c with
  | [] => []
  | b :: more =>
    ⟨b.toNat, some (c.toNat, more.length + 1)⟩ :: more.map fun b => ⟨b.toNat, none⟩

/-- The bytes of a text. -/
def cells (s : List Char) : List Cell := s.flatMap cellsOf

/-- What lies on either side of a place: the bytes next to it, and the characters. -/
structure Around where
  byteBefore : Option Nat
  byteAfter : Option Nat
  charBefore : Option Nat
  charAfter : Option Nat
deriving Repr, Inhabited

/-- Whether a word character stands before or after a place. -/
def Around.isWord (byte char : Option Nat) (ascii : Bool) : Bool :=
  if ascii then byte.any fun b => b < 0x80 && CharSet.word.holds b
  else char.any CharSet.word.holds

/-- Whether an anchor holds at a place. -/
def Around.satisfies (x : Around) : Anchor → Bool
  | .textStart => x.byteBefore.isNone
  | .textEnd => x.byteAfter.isNone
  | .lineStart crlf =>
    x.byteBefore.isNone || x.byteBefore == some 10
      || (crlf && x.byteBefore == some 13 && x.byteAfter != some 10)
  | .lineEnd crlf =>
    x.byteAfter.isNone || (crlf && x.byteAfter == some 13)
      || (x.byteAfter == some 10 && !(crlf && x.byteBefore == some 13))
  | .wordEdge a => before a != after a
  | .noWordEdge a => before a == after a
  | .wordStart a => !before a && after a
  | .wordEnd a => before a && !after a
  | .wordStartHalf a => !before a
  | .wordEndHalf a => !after a
where
  before (ascii : Bool) : Bool := Around.isWord x.byteBefore x.charBefore ascii
  after (ascii : Bool) : Bool := Around.isWord x.byteAfter x.charAfter ascii

/-- Whether the empty text at a place matches. -/
def nullable (x : Around) : Regex → Bool
  | .fail => false
  | .unit => true
  | .char _ => false
  | .byte _ => false
  | .remainder n => n == 0
  | .anchor a => x.satisfies a
  | .seq a b => a.nullable x && b.nullable x
  | .alt a b => a.nullable x || b.nullable x
  | .star _ => true
  | .repeated a least most => least == 0 || most == some 0 || a.nullable x

/-- One after the other, without needless parts. -/
def join : Regex → Regex → Regex
  | .unit, b => b
  | .remainder 0, b => b
  | a, b => .seq a b

/-- What may remain of an expression after a byte has been read at a place. -/
def after (x : Around) (cell : Cell) : Regex → List Regex
  | .fail => []
  | .unit => []
  | .char s =>
    match cell.starts with
    | some (code, size) => if s.holds code then [.remainder (size - 1)] else []
    | none => []
  | .byte s => if s.holds cell.byte then [.unit] else []
  | .remainder 0 => []
  | .remainder (n + 1) => [.remainder n]
  | .anchor _ => []
  | .seq a b =>
    let first := (a.after x cell).map (join · b)
    if a.nullable x then first ++ b.after x cell else first
  | .alt a b => a.after x cell ++ b.after x cell
  | .star a => (a.after x cell).map (join · (.star a))
  | .repeated _ _ (some 0) => []
  | .repeated a least most =>
    (a.after x cell).map (join · (.repeated a (least - 1) (most.map (· - 1))))

/-- Keeps the first of equal expressions. -/
def distinct : List Regex → List Regex
  | [] => []
  | r :: rest => r :: (distinct rest).filter (· != r)

/-- Searches the bytes that are left. `live` are the expressions under way. -/
def searchFrom (r : Regex) : (byteBefore charBefore : Option Nat) → List Cell → List Regex → Bool
  | byteBefore, charBefore, [], live =>
    let x : Around := ⟨byteBefore, none, charBefore, none⟩
    (r :: live).any (·.nullable x)
  | byteBefore, charBefore, cell :: more, live =>
    let x : Around :=
      ⟨byteBefore, some cell.byte, charBefore, cell.starts.map (·.1)⟩
    let live := r :: live
    if live.any (·.nullable x) then true
    else
      let char := match cell.starts with
        | some (code, _) => some code
        | none => charBefore
      r.searchFrom (some cell.byte) char more (distinct (live.flatMap (·.after x cell)))

/-- Whether an expression matches somewhere in a text. -/
def matchesIn (r : Regex) (text : String) : Bool :=
  r.searchFrom none none (cells text.toList) []

end Regex

end SourceFacts
