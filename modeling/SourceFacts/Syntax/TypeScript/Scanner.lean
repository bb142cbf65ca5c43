import SourceFacts.Syntax.Grammar
import SourceFacts.Syntax.SourceText

/-!
# Reading TypeScript terminals

TypeScript cannot be split into tokens without knowing where they stand: a slash divides or
opens a regular expression, an angle bracket compares or closes type arguments, text between
tags is no code. So terminals are read straight off the characters, each by its own rule.

A statement may end without a semicolon. `lineEnd` is the empty terminal that stands for the
missing one, right after the token or comment before it.
-/

namespace SourceFacts.Syntax.TypeScript

/-- What a rule asks of the next characters. -/
inductive Terminal where
  /-- This operator or delimiter, where no longer one could be read. -/
  | mark (m : String)
  /-- These characters, whatever comes after. -/
  | raw (m : String)
  /-- This very word. -/
  | word (w : String)
  /-- A word that may name something, as a node of the given kind. -/
  | name (kind : String)
  /-- Any word at all, as a node of the given kind. -/
  | anyName (kind : String)
  /-- The name of a private member. -/
  | privateName
  | number
  | string
  | regex
  /-- The first line of a script, when it names an interpreter. -/
  | hashBang
  | templateOpen | templateText | templateEscape | templateHole | templateClose
  /-- A tag or attribute name with dashes. -/
  | dashedName (kind : String)
  /-- Text between tags. -/
  | tagText
  | characterReference
  /-- A quoted attribute value, in which nothing is escaped. -/
  | attributeString
  /-- The missing semicolon at the end of a statement, or of a type. -/
  | lineEnd (afterType : Bool)
  /-- Nothing, provided that the next token stands on the same line. -/
  | sameLine
  /-- Nothing, at the end of the source. -/
  | finish
deriving Repr, BEq, Inhabited

/-- Whether the character separates tokens. -/
def isBlank (c : Char) : Bool :=
  c == ' ' || c == '\t' || c == '\n' || c == '\r' || c.toNat == 0x0B || c.toNat == 0x0C
    || c.toNat == 0xA0 || c.toNat == 0xFEFF || c.toNat == 0x2060 || c.toNat == 0x200B
    || c.toNat == 0x3000 || c.toNat == 0x1680 || (0x2000 ≤ c.toNat && c.toNat ≤ 0x200A)
    || c.toNat == 0x2028 || c.toNat == 0x2029 || c.toNat == 0x202F || c.toNat == 0x205F

/-- Whether the character ends a line. -/
def isLineBreak (c : Char) : Bool := c == '\n' || c.toNat == 0x2028 || c.toNat == 0x2029

/-- Whether a word may start with the character. -/
def isWordStart (c : Char) : Bool :=
  c.isAlpha || c == '_' || c == '$' || c == '\\' || (c.toNat ≥ 0x80 && !isBlank c)

/-- Whether a word may go on with the character. -/
def isWordRest (c : Char) : Bool := isWordStart c || c.isDigit

/-- Words that never name anything. -/
def reserved : List String :=
  ["await", "break", "case", "catch", "class", "const", "continue", "debugger", "default",
   "delete", "do", "else", "enum", "extends", "false", "finally", "for", "function", "if",
   "import", "in", "instanceof", "new", "null", "return", "super", "switch", "this", "throw",
   "true", "try", "typeof", "undefined", "var", "void", "while", "with"]

/-- Operators and delimiters, longest first. -/
def marks : List String :=
  [">>>=",
   "...", "===", "!==", "**=", "<<=", ">>=", ">>>", "&&=", "||=", "??=",
   "=>", "==", "!=", "<=", ">=", "&&", "||", "??", "?.", "++", "--", "+=", "-=", "*=", "/=",
   "%=", "&=", "|=", "^=", "<<", ">>", "**",
   "+", "-", "*", "/", "%", "&", "|", "^", "~", "!", "<", ">", "(", ")", "[", "]", "\x7b",
   "\x7d", ",", ":", ".", ";", "=", "?", "@"]

/-- The operator or delimiter at an offset. A question mark before a fraction stands alone. -/
def markAt? (t : SourceText) (i : Nat) : Option String :=
  marks.find? fun m =>
    t.hasAll i m.toList && (m != "?." || !(t.at? (i + 2)).any Char.isDigit)

/-- The offset after the comment that starts at `i`, if one does. -/
def commentEnd? (t : SourceText) (i : Nat) : Option Nat :=
  if t.hasAll i ['/', '/'] then some (t.skip (fun c => !isLineBreak c && c != '\r') i)
  else if t.hasAll i ['/', '*'] then some (close (t.size + 1) (i + 2))
  else none
where
  close : Nat → Nat → Nat
  | 0, i => i
  | fuel + 1, i =>
    if t.hasAll i ['*', '/'] then i + 2
    else if t.size ≤ i then t.size
    else close fuel (i + 1)

/-- Skips blanks and comments; gives the comments and the place of the next token. -/
def skipExtras (t : SourceText) : Nat → Nat → List Node → List Node × Nat
  | 0, i, acc => (acc.reverse, i)
  | fuel + 1, i, acc =>
    let j := t.skip isBlank i
    match commentEnd? t j with
    | some k => skipExtras t fuel k (t.leaf "comment" true j k :: acc)
    | none => (acc.reverse, j)

/-- Skips blanks and comments without keeping them. -/
def pastExtras (t : SourceText) (i : Nat) : Nat := (skipExtras t (t.size + 1) i []).2

/-- Whether the next token, past a line break, leaves room for a missing semicolon. -/
def breaksBefore (t : SourceText) (afterType : Bool) (i : Nat) : Bool :=
  match t.at? i with
  | none => true
  | some c =>
    if ['\x60', ',', '.', ';', '*', '%', '>', '<', '=', '?', '^', '|', '&', '/', ':'].contains c
    then false
    else if c = '(' || c = '[' then afterType
    else if c = '+' then t.has (i + 1) '+'
    else if c = '-' then t.has (i + 1) '-'
    else if c = '!' then !t.has (i + 1) '='
    else if c = 'i' then
      let alpha (k : Nat) : Bool := (t.at? k).any Char.isAlpha
      if !t.has (i + 1) 'n' then true
      else if !alpha (i + 2) then false
      else if t.hasAll (i + 2) "stanceof".toList then alpha (i + 10)
      else true
    else true

/-- Whether a missing semicolon may stand at `i`. -/
def endsAt (t : SourceText) (afterType : Bool) (i : Nat) : Bool :=
  let j := t.skip (fun c => isBlank c && c != '\n') i
  match t.at? j with
  | none => true
  | some '\x7d' => if t.has (t.skip isBlank (j + 1)) ':' then !afterType else true
  | some '\n' => breaksBefore t afterType (pastExtras t (j + 1))
  | some _ => false

/-- The place of the missing semicolon from `i` on, with the comments before it. -/
def lineEnd? (t : SourceText) (afterType : Bool) :
    Nat → Nat → List Node → Option (List Node × Nat)
  | 0, _, _ => none
  | fuel + 1, i, acc =>
    if endsAt t afterType i then some (acc.reverse, i)
    else
      let j := t.skip isBlank i
      match commentEnd? t j with
      | some k => lineEnd? t afterType fuel k (t.leaf "comment" true j k :: acc)
      | none => none

/-- The end of the number at `i`. -/
def numberEnd (t : SourceText) (i : Nat) : Nat :=
  let digits := t.skip fun c => c.isDigit || c == '_'
  let radix := t.has i '0' && (t.at? (i + 1)).any fun c => ['x', 'X', 'o', 'O', 'b', 'B'].contains c
  if radix then t.skip (fun c => c.isAlphanum || c == '_') (i + 2)
  else
    let j := digits i
    let j := if t.has j '.' then digits (j + 1) else j
    let j :=
      if (t.at? j).any fun c => c == 'e' || c == 'E' then
        let k := if t.has (j + 1) '+' || t.has (j + 1) '-' then j + 2 else j + 1
        if (t.at? k).any Char.isDigit then digits k else j
      else j
    if t.has j 'n' then j + 1 else j

/-- The length of the escape sequence at `i`. -/
def escapeLength (t : SourceText) (i : Nat) : Nat :=
  match t.at? (i + 1) with
  | none => 1
  | some 'x' => 4
  | some 'u' =>
    if t.has (i + 2) '\x7b' then t.skip (· != '\x7d') (i + 3) + 1 - i else 6
  | some '\r' => if t.has (i + 2) '\n' then 3 else 2
  | some c =>
    if '0' ≤ c && c ≤ '7' then
      min (t.skip (fun d => '0' ≤ d && d ≤ '7') (i + 1)) (i + 4) - i
    else 2

/-- Reads the inside of a string up to the quote; gives its parts and where it stops. -/
def stringParts (t : SourceText) (quote : Char) : Nat → Nat → List Node → List Node × Nat
  | 0, i, acc => (acc.reverse, i)
  | fuel + 1, i, acc =>
    match t.at? i with
    | none => (acc.reverse, i)
    | some c =>
      if c = quote then (acc.reverse, i)
      else if c = '\\' then
        let j := min (i + escapeLength t i) t.size
        stringParts t quote fuel j (t.leaf "escape_sequence" true i j :: acc)
      else
        let j := t.skip (fun d => d != quote && d != '\\') i
        stringParts t quote fuel j (t.leaf "string_fragment" true i j :: acc)

/-- The string at `i`. -/
def stringAt? (t : SourceText) (i : Nat) : Option Node :=
  match t.at? i with
  | some q =>
    if q = '"' || q = '\x27' then
      let (parts, j) := stringParts t q (t.size + 1) (i + 1) []
      let mark (a : Nat) : Node := t.leaf (String.ofList [q]) false a (a + 1)
      some { t.leaf "string" true i (j + 1) with children := mark i :: parts ++ [mark j] }
    else none
  | none => none

/-- Where the pattern of a regular expression ends. -/
def regexEnd (t : SourceText) : Nat → Bool → Nat → Option Nat
  | 0, _, _ => none
  | fuel + 1, inClass, i =>
    match t.at? i with
    | none => none
    | some c =>
      if c = '\n' then none
      else if c = '\\' then regexEnd t fuel inClass (i + 2)
      else if c = '[' then regexEnd t fuel true (i + 1)
      else if c = ']' then regexEnd t fuel false (i + 1)
      else if c = '/' && !inClass then some i
      else regexEnd t fuel inClass (i + 1)

/-- The regular expression at `i`. -/
def regexAt? (t : SourceText) (i : Nat) : Option Node :=
  if t.has i '/' && !t.has (i + 1) '*' && !t.has (i + 1) '/' then
    match regexEnd t (t.size + 1) false (i + 1) with
    | none => none
    | some j =>
      let k := t.skip Char.isAlpha (j + 1)
      let flags := if k > j + 1 then
        [(t.leaf "regex_flags" true (j + 1) k).withRole "flags"] else []
      some { t.leaf "regex" true i k with
        children := [t.leaf "/" false i (i + 1),
          (t.leaf "regex_pattern" true (i + 1) j).withRole "pattern",
          t.leaf "/" false j (j + 1)] ++ flags }
  else none

/-- Where the text between tags that starts at `i` ends. Blank text that spans lines does not
count as text. -/
def tagTextEnd (t : SourceText) : Nat → Nat → (seen atBreak : Bool) → Option Nat
  | 0, _, _, _ => none
  | fuel + 1, i, seen, atBreak =>
    match t.at? i with
    | none => if seen then some i else none
    | some c =>
      if ['<', '>', '\x7b', '\x7d', '&'].contains c then if seen then some i else none
      else if c = '\n' then tagTextEnd t fuel (i + 1) seen true
      else
        let atBreak := atBreak && isBlank c
        tagTextEnd t fuel (i + 1) (seen || !atBreak) atBreak

/-- Reads a terminal at an offset. -/
def scanner (t : SourceText) : Scanner Terminal := fun terminal pos =>
  let visible (lead : List Node) (n : Node) : Option (Piece × Nat) :=
    some (.ofNode lead n, n.span.stop)
  let unseen (lead : List Node) (i : Nat) : Option (Piece × Nat) :=
    some (⟨lead, none, t.span i i⟩, i)
  let next := fun (_ : Unit) => skipExtras t (t.size + 1) pos []
  let wordAt (i : Nat) : Option (String × Nat) :=
    if (t.at? i).any isWordStart then
      let j := t.skip isWordRest i
      some (t.slice i j, j)
    else none
  match terminal with
  | .mark m =>
    let (lead, i) := next ()
    if markAt? t i == some m then visible lead (t.leaf m false i (i + m.length)) else none
  | .raw m =>
    let (lead, i) := next ()
    if t.hasAll i m.toList then visible lead (t.leaf m false i (i + m.length)) else none
  | .word w =>
    let (lead, i) := next ()
    match wordAt i with
    | some (found, j) => if found == w then visible lead (t.leaf w false i j) else none
    | none => none
  | .name kind =>
    let (lead, i) := next ()
    match wordAt i with
    | some (found, j) =>
      if reserved.contains found then none else visible lead (t.leaf kind true i j)
    | none => none
  | .anyName kind =>
    let (lead, i) := next ()
    match wordAt i with
    | some (_, j) => visible lead (t.leaf kind true i j)
    | none => none
  | .privateName =>
    let (lead, i) := next ()
    if t.has i '#' then
      match wordAt (i + 1) with
      | some (_, j) => visible lead (t.leaf "private_property_identifier" true i j)
      | none => none
    else none
  | .number =>
    let (lead, i) := next ()
    if (t.at? i).any Char.isDigit || (t.has i '.' && (t.at? (i + 1)).any Char.isDigit) then
      visible lead (t.leaf "number" true i (numberEnd t i))
    else none
  | .string =>
    let (lead, i) := next ()
    (stringAt? t i).bind (visible lead)
  | .regex =>
    let (lead, i) := next ()
    (regexAt? t i).bind (visible lead)
  | .hashBang =>
    if pos == 0 && t.hasAll 0 ['#', '!'] then
      visible [] (t.leaf "hash_bang_line" true 0 (t.skip (· != '\n') 0))
    else none
  | .templateOpen =>
    let (lead, i) := next ()
    if t.has i '\x60' then visible lead (t.leaf "\x60" false i (i + 1)) else none
  | .templateText =>
    let j := templateEnd (t.size + 1) pos
    if j > pos then visible [] (t.leaf "string_fragment" true pos j) else none
  | .templateEscape =>
    if t.has pos '\\' then
      visible [] (t.leaf "escape_sequence" true pos (min (pos + escapeLength t pos) t.size))
    else none
  | .templateHole =>
    if t.hasAll pos ['$', '\x7b'] then visible [] (t.leaf "$\x7b" false pos (pos + 2)) else none
  | .templateClose =>
    if t.has pos '\x60' then visible [] (t.leaf "\x60" false pos (pos + 1)) else none
  | .dashedName kind =>
    let (lead, i) := next ()
    if (t.at? i).any isWordStart then
      visible lead (t.leaf kind true i (t.skip (fun c => isWordRest c || c == '-') i))
    else none
  | .tagText =>
    match tagTextEnd t (t.size + 1) pos false false with
    | some j => if j > pos then visible [] (t.leaf "jsx_text" true pos j) else none
    | none => none
  | .characterReference =>
    if t.has pos '&' then
      let j := t.skip (fun c => c.isAlphanum || c == '#') (pos + 1)
      let j := if t.has j ';' then j + 1 else j
      visible [] (t.leaf "html_character_reference" true pos j)
    else none
  | .attributeString =>
    let (lead, i) := next ()
    match t.at? i with
    | some q =>
      if q = '"' || q = '\x27' then
        let j := t.skip (· != q) (i + 1)
        let mark (a : Nat) : Node := t.leaf (String.ofList [q]) false a (a + 1)
        let inner := if j > i + 1 then [t.leaf "string_fragment" true (i + 1) j] else []
        visible lead { t.leaf "string" true i (min (j + 1) t.size) with
          children := mark i :: inner ++ [mark j] }
      else none
    | none => none
  | .lineEnd afterType =>
    match lineEnd? t afterType (t.size + 2) pos [] with
    | some (lead, i) => unseen lead i
    | none => none
  | .sameLine =>
    let j := t.skip (fun c => isBlank c && !isLineBreak c) pos
    if (t.at? j).any isLineBreak then none else unseen [] pos
  | .finish =>
    let (lead, i) := next ()
    if t.size ≤ i then unseen lead i else none
where
  /-- Where plain template text stops. -/
  templateEnd : Nat → Nat → Nat
  | 0, i => i
  | fuel + 1, i =>
    match t.at? i with
    | none => i
    | some c =>
      if c = '\x60' || c = '\\' || (c = '$' && t.has (i + 1) '\x7b') then i
      else templateEnd fuel (i + 1)

end SourceFacts.Syntax.TypeScript
