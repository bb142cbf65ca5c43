import SourceFacts.Syntax.Grammar
import SourceFacts.Syntax.SourceText

/-!
# Python tokens

Splits Python source into tokens. Line structure becomes tokens of its own: `newline` ends a
simple statement, `indent` and `dedent` open and close a suite; all three are empty and stand
right after the token or comment before them. A dedent waits for the comments that are
indented like the suite it closes.

Comments and line continuations are not tokens. They travel with the token that follows.
-/

namespace SourceFacts.Syntax.Python

/-- What sort of token it is. -/
inductive TokenClass where
  | word | mark | integer | float
  | stringStart | stringContent | stringEnd
  | conversion | formatText
  | newline | indent | dedent | finish
deriving Repr, BEq, DecidableEq, Inhabited

/-- A token, its text, and the comments before it. -/
structure Token where
  sort : TokenClass
  text : String
  lead : List Node
  node : Node
deriving Inhabited

/-- How a string literal ends, and how its content reads. -/
structure Quote where
  mark : Char
  triple : Bool
  raw : Bool
  bytes : Bool
  format : Bool
deriving Repr, BEq, Inhabited

/-- What encloses the current position, nearest first. -/
inductive Enclosure where
  /-- A bracket. -/
  | bracket
  /-- The text of a string that has replacement fields. -/
  | text (q : Quote)
  /-- A replacement field. -/
  | field
  /-- The format specification of a replacement field. -/
  | format
deriving Repr, BEq, Inhabited

/-- The state of the split. -/
structure Split where
  pos : Nat
  within : List Enclosure
  indents : List Nat
  lead : List Node
  tokens : Array Token
  /-- Whether a newline may end a statement here. -/
  unfinished : Bool
deriving Inhabited

/-- Whether a word may start with the character. -/
def isWordStart (c : Char) : Bool := c.isAlpha || c == '_' || c.toNat ≥ 0x80

/-- Whether a word may go on with the character. -/
def isWordRest (c : Char) : Bool := isWordStart c || c.isDigit

/-- Characters between tokens, line ends included. -/
def isBlank (c : Char) : Bool :=
  c == ' ' || c == '\t' || c == '\n' || c == '\r' || c.toNat == 0x0B || c.toNat == 0x0C
    || c.toNat == 0xA0 || c.toNat == 0xFEFF || c.toNat == 0x2060 || c.toNat == 0x200B
    || c.toNat == 0x3000 || c.toNat == 0x1680 || (0x2000 ≤ c.toNat && c.toNat ≤ 0x200A)
    || c.toNat == 0x2028 || c.toNat == 0x2029 || c.toNat == 0x202F || c.toNat == 0x205F

/-- Operators and delimiters, longest first. -/
def marks : List String :=
  ["**=", "//=", ">>=", "<<=", "...",
   "->", "+=", "-=", "*=", "/=", "@=", "%=", "&=", "|=", "^=", ":=", "**", "//", ">>", "<<",
   "<=", ">=", "==", "!=", "<>",
   "+", "-", "*", "/", "@", "%", "&", "|", "^", "~", "<", ">", "(", ")", "[", "]", "\x7b",
   "\x7d", ",", ":", ".", ";", "=", "!"]

/-- What lies between two tokens, as far as line structure is concerned. -/
structure Gap where
  /-- An end of line, or the end of the source, was passed. -/
  ended : Bool
  /-- The indentation of what follows. -/
  indent : Nat
  /-- The indentation of the first comment that has a line of its own. -/
  comment : Option Nat
  /-- A comment or stray backslash stands on the same line. -/
  blocked : Bool
deriving Repr, Inhabited

/-- The gap that starts at an offset. -/
def gapAt (t : SourceText) : (fuel i : Nat) → Gap → Gap
  | 0, _, g => g
  | fuel + 1, i, g =>
    match t.at? i with
    | none => { g with ended := true, indent := 0 }
    | some c =>
      if c = '\n' then gapAt t fuel (i + 1) { g with ended := true, indent := 0 }
      else if c = ' ' then gapAt t fuel (i + 1) { g with indent := g.indent + 1 }
      else if c = '\t' then gapAt t fuel (i + 1) { g with indent := g.indent + 8 }
      else if c = '\r' || c.toNat == 0x0C then gapAt t fuel (i + 1) { g with indent := 0 }
      else if c = '#' then
        if g.ended then
          let stop := t.skip (· != '\n') i
          gapAt t fuel (stop + 1)
            { g with indent := 0, comment := g.comment.or (some g.indent) }
        else { g with blocked := true }
      else if c = '\\' then
        let i := if t.has (i + 1) '\r' then i + 2 else i + 1
        if t.has i '\n' || t.size ≤ i then gapAt t fuel (i + 1) g
        else { g with blocked := true }
      else g

namespace Split

/-- Emits a token that covers the source up to `stop`, with nodes of its own inside. -/
def emitWith (s : Split) (t : SourceText) (sort : TokenClass) (kind : String) (named : Bool)
    (stop : Nat) (children : List Node) : Split :=
  let node := { t.leaf kind named s.pos stop with children }
  let token := { sort, text := t.slice s.pos stop, lead := s.lead, node : Token }
  { s with
    pos := stop, lead := [], tokens := s.tokens.push token
    unfinished := match sort with
      | .newline | .indent | .dedent => false
      | _ => true }

/-- Emits a token that covers the source up to `stop`. -/
def emit (s : Split) (t : SourceText) (sort : TokenClass) (kind : String) (named : Bool)
    (stop : Nat) : Split :=
  s.emitWith t sort kind named stop []

/-- Sets a comment or line continuation aside for the next token. -/
def setAside (s : Split) (t : SourceText) (kind : String) (stop : Nat) : Split :=
  { s with pos := stop, lead := s.lead ++ [t.leaf kind true s.pos stop] }

end Split

/-- The length of the escape sequence that the backslash at `i` begins, or zero. -/
def escapeLength (t : SourceText) (q : Quote) (i : Nat) : Nat :=
  let hex (c : Char) : Bool := c.isDigit || ('a' ≤ c && c ≤ 'f') || ('A' ≤ c && c ≤ 'F')
  let hexRun (n : Nat) : Nat :=
    if (List.range n).all fun k => (t.at? (i + 2 + k)).any hex then n + 2 else 0
  match t.at? (i + 1) with
  | none => 0
  | some c =>
    if c = 'x' then hexRun 2
    else if c = 'u' then if q.bytes then 0 else hexRun 4
    else if c = 'U' then if q.bytes then 0 else hexRun 8
    else if c = 'N' then
      if q.bytes || !t.has (i + 2) '\x7b' then 0
      else
        let stop := t.skip (· != '\x7d') (i + 3)
        if stop > i + 3 && t.has stop '\x7d' then stop + 1 - i else 0
    else if c.isDigit then min (t.skip Char.isDigit (i + 1)) (i + 4) - i
    else if c = '\r' then if t.has (i + 2) '\n' then 3 else 0
    else if c = '\n' || ['\x27', '"', 'a', 'b', 'f', 'r', 'n', 't', 'v', '\\'].contains c then 2
    else 0

/-- Whether a string closes at `i`. -/
def closesAt (t : SourceText) (q : Quote) (i : Nat) : Bool :=
  t.has i q.mark && (!q.triple || (t.has (i + 1) q.mark && t.has (i + 2) q.mark))

/-- Reads string text from `i` up to its end or to the next replacement field; gives the
place where it stops and the escapes in it. -/
def readText (t : SourceText) (q : Quote) : (fuel i : Nat) → List Node → Nat × List Node
  | 0, i, acc => (i, acc.reverse)
  | fuel + 1, i, acc =>
    match t.at? i with
    | none => (i, acc.reverse)
    | some c =>
      if closesAt t q i then (i, acc.reverse)
      else if q.format && (c = '\x7b' || c = '\x7d') then
        if t.has (i + 1) c then
          readText t q fuel (i + 2) (t.leaf "escape_interpolation" true i (i + 2) :: acc)
        else (i, acc.reverse)
      else if c = '\\' then
        if q.raw then
          let j := if t.has (i + 1) q.mark || t.has (i + 1) '\\' then i + 2 else i + 1
          readText t q fuel j acc
        else
          match escapeLength t q i with
          | 0 => readText t q fuel (i + 1) acc
          | n => readText t q fuel (i + n) (t.leaf "escape_sequence" true i (i + n) :: acc)
      else readText t q fuel (i + 1) acc

/-- The quote of the string that starts at `i`, and where its text begins. -/
def quoteAt? (t : SourceText) (i : Nat) : Option (Quote × Nat) :=
  let flag (c : Char) : Bool :=
    ['r', 'R', 'b', 'B', 'u', 'U', 'f', 'F', 't', 'T'].contains c
  let j := t.skip flag i
  let flags := (t.chars.extract i j).toList.map Char.toLower
  match t.at? j with
  | some c =>
    if c = '"' || c = '\x27' then
      let triple := t.has (j + 1) c && t.has (j + 2) c
      some ({ mark := c, triple, raw := flags.contains 'r', bytes := flags.contains 'b',
              format := flags.contains 'f' || flags.contains 't' },
            if triple then j + 3 else j + 1)
    else none
  | none => none

/-- The end of the number that starts at `i`, and whether it is a floating one. -/
def numberAt (t : SourceText) (i : Nat) : Nat × Bool :=
  let digits := t.skip fun c => c.isDigit || c == '_'
  let radix := t.has i '0' && (t.at? (i + 1)).any fun c => ['x', 'X', 'o', 'O', 'b', 'B'].contains c
  if radix then (t.skip (fun c => c.isAlphanum || c == '_') (i + 2), false)
  else
    let whole := digits i
    let (j, fraction) := if t.has whole '.' then (digits (whole + 1), true) else (whole, false)
    let exponent : Option Nat :=
      if (t.at? j).any fun c => c == 'e' || c == 'E' then
        let k := if t.has (j + 1) '+' || t.has (j + 1) '-' then j + 2 else j + 1
        if (t.at? k).any Char.isDigit then some (digits k) else none
      else none
    let j' := exponent.getD j
    let float := fraction || exponent.isSome
    if (t.at? j').any fun c => c == 'j' || c == 'J' then (j' + 1, float)
    else if !float && (t.at? j').any (fun c => c == 'l' || c == 'L') then (j' + 1, float)
    else (j', float)

/-- One step inside code: a piece of line structure, a comment or a token. `none` at the end. -/
def stepCode (t : SourceText) (s : Split) : Option Split :=
  let layout : Option Split :=
    if s.within.isEmpty then
      let g := gapAt t (t.size + 1) s.pos ⟨false, 0, none, false⟩
      let current := s.indents.headD 0
      if g.blocked || !g.ended then none
      else if g.indent > current && (s.tokens.back?.any fun k => k.sort == .mark && k.text == ":")
      then
        some { s.emit t .indent "indent" false s.pos with indents := g.indent :: s.indents }
      else if s.unfinished then
        some (s.emit t .newline "newline" false s.pos)
      else if g.indent < current && (match g.comment with | none => true | some n => n < current)
      then
        some { s.emit t .dedent "dedent" false s.pos with indents := s.indents.drop 1 }
      else none
    else none
  match layout with
  | some s => some s
  | none =>
    let i := t.skip isBlank s.pos
    let s := { s with pos := i }
    match t.at? i with
    | none => none
    | some c =>
      if c = '#' then some (s.setAside t "comment" (t.skip (· != '\n') i))
      else if c = '\\' then
        let j := if t.has (i + 1) '\r' then i + 3 else i + 2
        some (s.setAside t "line_continuation" (min j t.size))
      else if c = '!' && s.within.head? == some .field && !t.has (i + 1) '=' then
        some (s.emit t .conversion "type_conversion" true (min (i + 2) t.size))
      else if c = ':' && s.within.head? == some .field then
        let s := s.emit t .mark ":" false (i + 1)
        some { s with within := .format :: s.within }
      else
        match quoteAt? t i with
        | some (q, j) =>
          let s := s.emit t .stringStart "string_start" true j
          some { s with within := .text q :: s.within }
        | none =>
          if isWordStart c then
            let j := t.skip isWordRest i
            let j := if t.hasAll i ['e', 'x', 'c', 'e', 'p', 't', '*'] && j = i + 6 then j + 1 else j
            some (s.emit t .word "identifier" true j)
          else if c.isDigit || (c = '.' && (t.at? (i + 1)).any Char.isDigit) then
            let (j, float) := numberAt t i
            some (if float then s.emit t .float "float" true j
              else s.emit t .integer "integer" true j)
          else
            match marks.find? fun m => t.hasAll i m.toList with
            | none => some { s with pos := i + 1 }
            | some m =>
              let s := s.emit t .mark m false (i + m.length)
              if m = "(" || m = "[" || m = "\x7b" then some { s with within := .bracket :: s.within }
              else if m = ")" || m = "]" || m = "\x7d" then some { s with within := s.within.drop 1 }
              else some s

/-- One step inside the text of a string. -/
def stepText (t : SourceText) (q : Quote) (s : Split) : Option Split :=
  let (stop, escapes) := readText t q (t.size + 1) s.pos []
  if stop > s.pos then some (s.emitWith t .stringContent "string_content" true stop escapes)
  else if closesAt t q stop then
    let s := s.emit t .stringEnd "string_end" true (if q.triple then stop + 3 else stop + 1)
    some { s with within := s.within.drop 1 }
  else
    match t.at? stop with
    | none => none
    | some '\x7b' =>
      let s := s.emit t .mark "\x7b" false (stop + 1)
      some { s with within := .field :: s.within }
    | some _ => some { s with pos := stop + 1 }

/-- One step inside a format specification. -/
def stepFormat (t : SourceText) (s : Split) : Option Split :=
  match t.at? s.pos with
  | none => none
  | some c =>
    if c = '\x7b' then
      let s := s.emit t .mark "\x7b" false (s.pos + 1)
      some { s with within := .field :: s.within }
    else if c = '\x7d' then some { s with within := s.within.drop 1 }
    else
      let stop := t.skip (fun c => c != '\x7b' && c != '\x7d' && c != '\n') s.pos
      if stop > s.pos then some (s.emit t .formatText "format_text" false stop)
      else some { s with pos := s.pos + 1 }

/-- One step of the split, or nothing at the end of the source. -/
def step (t : SourceText) (s : Split) : Option Split :=
  match s.within with
  | .text q :: _ => stepText t q s
  | .format :: _ => stepFormat t s
  | _ => stepCode t s

/-- Steps until the source is used up. -/
def steps (t : SourceText) : Nat → Split → Split
  | 0, s => s
  | fuel + 1, s =>
    match step t s with
    | none => s
    | some s => steps t fuel s

/-- The tokens of a source, with an empty one at its end. -/
def tokens (t : SourceText) : Array Token :=
  let start : Split := ⟨0, [], [0], [], #[], false⟩
  let s := steps t (6 * t.size + 16) start
  (({ s with pos := t.size }).emit t .finish "finish" false t.size).tokens

end SourceFacts.Syntax.Python
