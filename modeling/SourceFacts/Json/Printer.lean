import SourceFacts.Json.Value

/-!
# How JSON is written

The compact form has no blanks; the indented form puts each item on a line of its own. In texts,
quotes, backslashes and control characters are escaped, and nothing else is.
-/

namespace SourceFacts.Json

/-- A hexadecimal digit. -/
def hexDigit (n : Nat) : Char := if n < 10 then Char.ofNat (48 + n) else Char.ofNat (87 + n)

/-- A character as it stands in a quoted text. -/
def escaped (c : Char) : List Char :=
  match c with
  | '"' => ['\\', '"']
  | '\\' => ['\\', '\\']
  | '\n' => ['\\', 'n']
  | '\r' => ['\\', 'r']
  | '\t' => ['\\', 't']
  | c =>
    if c.toNat = 8 then ['\\', 'b']
    else if c.toNat = 12 then ['\\', 'f']
    else if c.toNat < 32 then
      ['\\', 'u', '0', '0', hexDigit (c.toNat / 16), hexDigit (c.toNat % 16)]
    else [c]

/-- A text in quotes. -/
def quoted (s : String) : List Char := '"' :: (s.toList.flatMap escaped ++ ['"'])

/-- A whole number in decimal. -/
def digits (n : Int) : List Char := (toString n).toList

mutual

/-- The compact form of a value. -/
def chars : Json → List Char
  | .null => ['n', 'u', 'l', 'l']
  | .bool true => ['t', 'r', 'u', 'e']
  | .bool false => ['f', 'a', 'l', 's', 'e']
  | .int n => digits n
  | .fraction text => text.toList
  | .string s => quoted s
  | .broken => ['n', 'u', 'l', 'l']
  | .list items => '[' :: (itemChars items ++ [']'])
  | .object fields => '\x7b' :: (fieldChars fields ++ ['\x7d'])

/-- The compact form of items, with commas between. -/
def itemChars : List Json → List Char
  | [] => []
  | [a] => a.chars
  | a :: b :: rest => a.chars ++ ',' :: itemChars (b :: rest)

/-- The compact form of fields, with commas between. -/
def fieldChars : List (String × Json) → List Char
  | [] => []
  | [(k, v)] => quoted k ++ ':' :: v.chars
  | (k, v) :: f :: rest => quoted k ++ ':' :: (v.chars ++ ',' :: fieldChars (f :: rest))

end

/-- The compact form of a value. -/
def compact (j : Json) : String := String.ofList j.chars

/-- The end of a line and the indentation of the next. -/
def newLine (depth : Nat) : List Char := '\n' :: List.replicate (2 * depth) ' '

mutual

/-- The indented form of a value that stands at some depth. -/
def indentedChars (depth : Nat) : Json → List Char
  | .list [] => ['[', ']']
  | .list (a :: rest) => '[' :: (itemLines (depth + 1) (a :: rest) ++ newLine depth ++ [']'])
  | .object [] => ['\x7b', '\x7d']
  | .object (f :: rest) =>
    '\x7b' :: (fieldLines (depth + 1) (f :: rest) ++ newLine depth ++ ['\x7d'])
  | .null => chars .null
  | .bool b => chars (.bool b)
  | .int n => chars (.int n)
  | .fraction text => chars (.fraction text)
  | .string s => chars (.string s)
  | .broken => chars .broken

/-- The indented form of items, each on its line. -/
def itemLines (depth : Nat) : List Json → List Char
  | [] => []
  | [a] => newLine depth ++ a.indentedChars depth
  | a :: b :: rest => newLine depth ++ a.indentedChars depth ++ ',' :: itemLines depth (b :: rest)

/-- The indented form of fields, each on its line. -/
def fieldLines (depth : Nat) : List (String × Json) → List Char
  | [] => []
  | [(k, v)] => newLine depth ++ quoted k ++ ':' :: ' ' :: v.indentedChars depth
  | (k, v) :: f :: rest =>
    newLine depth ++ quoted k ++ ':' :: ' ' :: (v.indentedChars depth ++
      ',' :: fieldLines depth (f :: rest))

end

/-- The indented form of a value. -/
def indented (j : Json) : String := String.ofList (j.indentedChars 0)

end SourceFacts.Json
