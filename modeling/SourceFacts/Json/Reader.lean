import SourceFacts.Json.Value

/-!
# How JSON is read

Reads the JSON format to the letter: no trailing commas, no leading zeros, no bare control
characters in texts, and nothing but blanks after the value.
-/

namespace SourceFacts.Json

/-- Skips blanks. -/
def skipBlanks (s : List Char) : List Char :=
  s.dropWhile fun c => c == ' ' || c == '\t' || c == '\n' || c == '\r'

/-- The value of a hexadecimal digit. -/
def hexValue? (c : Char) : Option Nat :=
  if c.isDigit then some (c.toNat - 48)
  else if 'a' ≤ c && c ≤ 'f' then some (c.toNat - 87)
  else if 'A' ≤ c && c ≤ 'F' then some (c.toNat - 55)
  else none

/-- The value of four hexadecimal digits. -/
def hexQuad? (a b c d : Char) : Option Nat := do
  return 4096 * (← hexValue? a) + 256 * (← hexValue? b) + 16 * (← hexValue? c) + (← hexValue? d)

/-- The character that a letter stands for after a backslash. -/
def escape? : Char → Option Char
  | '"' => some '"'
  | '\\' => some '\\'
  | '/' => some '/'
  | 'b' => some (Char.ofNat 8)
  | 'f' => some (Char.ofNat 12)
  | 'n' => some '\n'
  | 'r' => some '\r'
  | 't' => some '\t'
  | _ => none

/-- Whether a code unit is the first half of a pair. -/
def isHighHalf (n : Nat) : Bool := 0xD800 ≤ n && n < 0xDC00

/-- Whether a code unit is the second half of a pair. -/
def isLowHalf (n : Nat) : Bool := 0xDC00 ≤ n && n < 0xE000

/-- Reads a text after its opening quote. `acc` holds the characters so far, the latest first,
or nothing once half of a pair has been met. -/
def readText (acc : Option (List Char)) : List Char → Option (Json × List Char)
  | '"' :: rest =>
    match acc with
    | some cs => some (.string (String.ofList cs.reverse), rest)
    | none => some (.broken, rest)
  | '\\' :: 'u' :: a :: b :: c :: d :: '\\' :: 'u' :: e :: f :: g :: h :: rest =>
    match hexQuad? a b c d, hexQuad? e f g h with
    | some m, some n =>
      if isHighHalf m && isLowHalf n then
        let code := 0x10000 + 1024 * (m - 0xD800) + (n - 0xDC00)
        readText (acc.map (Char.ofNat code :: ·)) rest
      else if isHighHalf m || isLowHalf m then
        readText none ('\\' :: 'u' :: e :: f :: g :: h :: rest)
      else readText (acc.map (Char.ofNat m :: ·)) ('\\' :: 'u' :: e :: f :: g :: h :: rest)
    | some m, none =>
      if isHighHalf m || isLowHalf m then none
      else readText (acc.map (Char.ofNat m :: ·)) ('\\' :: 'u' :: e :: f :: g :: h :: rest)
    | none, _ => none
  | '\\' :: 'u' :: a :: b :: c :: d :: rest =>
    match hexQuad? a b c d with
    | some m =>
      if isHighHalf m || isLowHalf m then readText none rest
      else readText (acc.map (Char.ofNat m :: ·)) rest
    | none => none
  | '\\' :: c :: rest =>
    match escape? c with
    | some c => readText (acc.map (c :: ·)) rest
    | none => none
  | [] => none
  | ['\\'] => none
  | c :: rest => if c.toNat < 32 then none else readText (acc.map (c :: ·)) rest
termination_by s => s.length

/-- Reads the digits of a number, of which there has to be one. -/
def readDigits (s : List Char) : Option (List Char × List Char) :=
  match s.takeWhile Char.isDigit with
  | [] => none
  | ds => some (ds, s.dropWhile Char.isDigit)

/-- The number that digits denote. -/
def natOf (ds : List Char) : Nat := ds.foldl (fun n c => 10 * n + (c.toNat - 48)) 0

/-- Reads a number. -/
def readNumber (s : List Char) : Option (Json × List Char) := do
  let (sign, s) := match s with
    | '-' :: rest => (['-'], rest)
    | s => ([], s)
  let (whole, s) ← readDigits s
  if whole.head? == some '0' && whole.length ≠ 1 then none
  else
    let (point, s) ← match s with
      | '.' :: rest => (readDigits rest).map fun (ds, rest) => ('.' :: ds, rest)
      | s => some ([], s)
    let (power, s) ← match s with
      | c :: rest =>
        if c = 'e' || c = 'E' then
          let (mark, rest) := match rest with
            | '+' :: more => (['+'], more)
            | '-' :: more => (['-'], more)
            | more => ([], more)
          (readDigits rest).map fun (ds, rest) => (c :: mark ++ ds, rest)
        else some ([], c :: rest)
      | [] => some ([], [])
    let n : Int := natOf whole
    if point.isEmpty && power.isEmpty && !(sign = ['-'] && n = 0) then
      return (.int (if sign.isEmpty then n else -n), s)
    else return (.fraction (String.ofList (sign ++ whole ++ point ++ power)), s)

/-- Reads a fixed word. -/
def readWord (word : List Char) (j : Json) (s : List Char) : Option (Json × List Char) :=
  if word.isPrefixOf s then some (j, s.drop word.length) else none

mutual

/-- Reads a value. -/
def readValue : (fuel : Nat) → List Char → Option (Json × List Char)
  | 0, _ => none
  | fuel + 1, s =>
    match skipBlanks s with
    | [] => none
    | '"' :: rest => readText (some []) rest
    | '[' :: rest =>
      match skipBlanks rest with
      | ']' :: rest => some (.list [], rest)
      | rest => readItems fuel [] rest
    | '\x7b' :: rest =>
      match skipBlanks rest with
      | '\x7d' :: rest => some (.object [], rest)
      | rest => readFields fuel [] rest
    | 'n' :: rest => readWord ['u', 'l', 'l'] .null rest
    | 't' :: rest => readWord ['r', 'u', 'e'] (.bool true) rest
    | 'f' :: rest => readWord ['a', 'l', 's', 'e'] (.bool false) rest
    | rest => readNumber rest

/-- Reads items up to the closing bracket. -/
def readItems : (fuel : Nat) → List Json → List Char → Option (Json × List Char)
  | 0, _, _ => none
  | fuel + 1, acc, s =>
    match readValue fuel s with
    | none => none
    | some (j, rest) =>
      match skipBlanks rest with
      | ',' :: rest => readItems fuel (j :: acc) rest
      | ']' :: rest => some (.list (j :: acc).reverse, rest)
      | _ => none

/-- Reads fields up to the closing brace. -/
def readFields : (fuel : Nat) → List (String × Json) → List Char → Option (Json × List Char)
  | 0, _, _ => none
  | fuel + 1, acc, s =>
    match skipBlanks s with
    | '"' :: rest =>
      match readText (some []) rest with
      | some (.string name, rest) =>
        match skipBlanks rest with
        | ':' :: rest =>
          match readValue fuel rest with
          | none => none
          | some (j, rest) =>
            match skipBlanks rest with
            | ',' :: rest => readFields fuel ((name, j) :: acc) rest
            | '\x7d' :: rest => some (.object ((name, j) :: acc).reverse, rest)
            | _ => none
        | _ => none
      | _ => none
    | _ => none

end

/-- The value that a text denotes, if it is JSON. -/
def ofText? (text : String) : Option Json :=
  let s := text.toList
  match readValue (2 * s.length + 2) s with
  | some (j, rest) => if (skipBlanks rest).isEmpty then some j else none
  | none => none

end SourceFacts.Json
