import SourceFacts.Json.Value

/-!
# TOML keys and scalars

Reads the keys, texts, numbers, truth values and dates of the TOML format.
-/

namespace SourceFacts.Toml

/-- Why a text is not TOML. -/
inductive Fault where
  | malformed
  | badNumber
  | badText
  | repeatedKey (key : String)
  | tooDeep
deriving Repr, BEq, DecidableEq, Inhabited

/-- Skips spaces and tabs. -/
def skipSpace (s : List Char) : List Char := s.dropWhile fun c => c == ' ' || c == '\t'

/-- Whether a character may not stand in texts and comments. -/
def isControl (c : Char) : Bool := (c.toNat < 32 && c != '\t') || c.toNat = 127

/-- Skips a line end, if there is one. -/
def lineEnd? : List Char → Option (List Char)
  | '\n' :: rest => some rest
  | '\r' :: '\n' :: rest => some rest
  | _ => none

/-- Skips a comment, if there is one. -/
def skipComment (s : List Char) : List Char :=
  match s with
  | '#' :: rest => rest.dropWhile fun c => !isControl c
  | s => s

/-- Skips spaces, comments and line ends. -/
def skipLines : (fuel : Nat) → List Char → List Char
  | 0, s => s
  | fuel + 1, s =>
    let s := skipComment (skipSpace s)
    match lineEnd? s with
    | some rest => skipLines fuel rest
    | none => s

/-- The value of a hexadecimal digit. -/
def hexValue? (c : Char) : Option Nat :=
  if c.isDigit then some (c.toNat - 48)
  else if 'a' ≤ c && c ≤ 'f' then some (c.toNat - 87)
  else if 'A' ≤ c && c ≤ 'F' then some (c.toNat - 55)
  else none

/-- The character with the given code in hexadecimal. -/
def charOf? (ds : List Char) : Option Char := do
  let n ← ds.foldlM (fun n c => (hexValue? c).map (16 * n + ·)) 0
  if h : n.isValidChar then some (Char.ofNatAux n h) else none

/-- Reads what follows a backslash. -/
def readEscape (s : List Char) : Except Fault (Char × List Char) :=
  let code (digits : Nat) (rest : List Char) : Except Fault (Char × List Char) :=
    match if (rest.take digits).length = digits then charOf? (rest.take digits) else none with
    | some c => .ok (c, rest.drop digits)
    | none => .error .badText
  match s with
  | 'b' :: rest => .ok (Char.ofNat 8, rest)
  | 't' :: rest => .ok ('\t', rest)
  | 'n' :: rest => .ok ('\n', rest)
  | 'f' :: rest => .ok (Char.ofNat 12, rest)
  | 'r' :: rest => .ok ('\r', rest)
  | '"' :: rest => .ok ('"', rest)
  | '\\' :: rest => .ok ('\\', rest)
  | 'u' :: rest => code 4 rest
  | 'U' :: rest => code 8 rest
  | _ => .error .badText

/-- Reads a text on one line after its opening quote; `raw` ones know no escapes. -/
def readLine (quote : Char) (raw : Bool) : (fuel : Nat) → List Char → List Char →
    Except Fault (String × List Char)
  | 0, _, _ => .error .badText
  | fuel + 1, acc, s =>
    match s with
    | [] => .error .badText
    | c :: rest =>
      if c = quote then .ok (String.ofList acc.reverse, rest)
      else if c = '\\' && !raw then
        match readEscape rest with
        | .ok (d, rest) => readLine quote raw fuel (d :: acc) rest
        | .error e => .error e
      else if isControl c then .error .badText
      else readLine quote raw fuel (c :: acc) rest

/-- Skips blanks after a backslash at the end of a line; there has to be a line end among
them. -/
def skipFolded (s : List Char) : Option (List Char) :=
  match lineEnd? (skipSpace s) with
  | none => none
  | some rest => some (go (rest.length + 1) rest)
where
  /-- Skips spaces and line ends. -/
  go : Nat → List Char → List Char
  | 0, s => s
  | fuel + 1, s =>
    let s := skipSpace s
    match lineEnd? s with
    | some rest => go fuel rest
    | none => s

/-- Reads a text over several lines after its opening quotes. Up to two quotes may stand just
before the closing ones. -/
def readBlock (quote : Char) (raw : Bool) : (fuel : Nat) → List Char → List Char →
    Except Fault (String × List Char)
  | 0, _, _ => .error .badText
  | fuel + 1, acc, s =>
    match s with
    | [] => .error .badText
    | c :: rest =>
      if c = quote then
        let quotes := (s.takeWhile (· == quote)).length
        if quotes < 3 then readBlock quote raw fuel (c :: acc) rest
        else if quotes ≤ 5 then
          .ok (String.ofList (List.replicate (quotes - 3) quote ++ acc).reverse, s.drop quotes)
        else .error .badText
      else if c = '\\' && !raw then
        match skipFolded rest with
        | some rest => readBlock quote raw fuel acc rest
        | none =>
          match readEscape rest with
          | .ok (d, rest) => readBlock quote raw fuel (d :: acc) rest
          | .error e => .error e
      else
        match lineEnd? s with
        | some rest => readBlock quote raw fuel ('\n' :: acc) rest
        | none => if isControl c then .error .badText else readBlock quote raw fuel (c :: acc) rest

/-- Reads a text after its first quote. -/
def readText (quote : Char) (s : List Char) : Except Fault (String × List Char) :=
  let raw := quote == '\x27'
  let n := s.length + 1
  match s with
  | a :: b :: rest =>
    if a = quote && b = quote then
      readBlock quote raw n [] ((lineEnd? rest).getD rest)
    else readLine quote raw n [] s
  | _ => readLine quote raw n [] s

/-- Whether a character may stand in a key without quotes. -/
def isBare (c : Char) : Bool := c.isAlphanum || c == '_' || c == '-'

/-- Reads one part of a key. -/
def readKeyPart (s : List Char) : Except Fault (String × List Char) :=
  match s with
  | '"' :: rest => readLine '"' false (rest.length + 1) [] rest
  | '\x27' :: rest => readLine '\x27' true (rest.length + 1) [] rest
  | s =>
    match s.takeWhile isBare with
    | [] => .error .malformed
    | cs => .ok (String.ofList cs, s.dropWhile isBare)

/-- Reads a key with dots between its parts. -/
def readKey : (fuel : Nat) → List Char → Except Fault (List String × List Char)
  | 0, _ => .error .tooDeep
  | fuel + 1, s => do
    let (part, rest) ← readKeyPart (skipSpace s)
    match skipSpace rest with
    | '.' :: rest =>
      let (parts, rest) ← readKey fuel rest
      return (part :: parts, rest)
    | rest => return ([part], rest)

/-- The digits of a number without underscores, each of which has to stand between digits. -/
def plainDigits? (isDigit : Char → Bool) : (after : Bool) → List Char → Option (List Char)
  | after, [] => if after then some [] else none
  | after, c :: rest =>
    if isDigit c then (plainDigits? isDigit true rest).map (c :: ·)
    else if c = '_' && after then plainDigits? isDigit false rest
    else none

/-- The value of digits in some base. -/
def valueOf (base : Nat) (ds : List Char) : Nat :=
  ds.foldl (fun n c => base * n + (hexValue? c).getD 0) 0

/-- A whole number, of which no more than 128 bits can be kept. -/
def whole (n : Int) : Except Fault Json :=
  if -Int.ofNat (1 <<< 127) ≤ n && n < Int.ofNat (1 <<< 128) then .ok (.int n) else .error .badNumber

/-- Whether digits are those of a whole number in decimal: no zero comes first. -/
def isWhole (ds : List Char) : Bool := ds.head? != some '0' || ds.length == 1

/-- The digits of a decimal number, with or without a fraction and an exponent. -/
def isFraction (s : List Char) : Bool :=
  let isDigit (c : Char) : Bool := c.isDigit || c == '_'
  let plain (ds : List Char) : Option (List Char) := plainDigits? Char.isDigit false ds
  let wholePart := s.takeWhile isDigit
  let rest := s.dropWhile isDigit
  let (point, rest) := match rest with
    | '.' :: more => (some (more.takeWhile isDigit), more.dropWhile isDigit)
    | more => (none, more)
  let (power, rest) := match rest with
    | c :: more =>
      if c = 'e' || c = 'E' then
        let more := match more with
          | '+' :: m => m
          | '-' :: m => m
          | m => m
        (some (more.takeWhile isDigit), more.dropWhile isDigit)
      else (none, rest)
    | [] => (none, [])
  rest.isEmpty && (plain wholePart).any isWhole && point.all (fun ds => (plain ds).isSome)
    && power.all (fun ds => (plain ds).isSome) && (point.isSome || power.isSome)

/-- The number that so many digits make, if there are just so many. -/
def digitsIn (low high : Nat) (ds : List Char) : Bool :=
  ds.all Char.isDigit && low ≤ valueOf 10 ds && valueOf 10 ds ≤ high

/-- Whether a text is the time of a day, perhaps with an offset. -/
def isTime (offset : Bool) (s : List Char) : Bool :=
  match s with
  | h :: i :: ':' :: m :: n :: ':' :: a :: b :: rest =>
    let rest := match rest with
      | '.' :: d :: more => if d.isDigit then more.dropWhile Char.isDigit else rest
      | rest => rest
    digitsIn 0 23 [h, i] && digitsIn 0 59 [m, n] && digitsIn 0 60 [a, b] &&
      match rest with
      | [] => true
      | ['Z'] | ['z'] => offset
      | [sign, h, i, ':', m, n] =>
        offset && (sign == '+' || sign == '-') && digitsIn 0 23 [h, i] && digitsIn 0 59 [m, n]
      | _ => false
  | _ => false

/-- The number of days of a month. -/
def daysIn (year month : Nat) : Nat :=
  if month = 2 then
    if year % 4 = 0 && (year % 100 != 0 || year % 400 = 0) then 29 else 28
  else if [4, 6, 9, 11].contains month then 30
  else 31

/-- Whether a text is a date, a time, or both. -/
def isDate (s : List Char) : Bool :=
  match s with
  | a :: b :: c :: d :: '-' :: m :: n :: '-' :: e :: f :: rest =>
    let year := valueOf 10 [a, b, c, d]
    let month := valueOf 10 [m, n]
    digitsIn 0 9999 [a, b, c, d] && digitsIn 1 12 [m, n]
      && digitsIn 1 (daysIn year month) [e, f] &&
      match rest with
      | [] => true
      | t :: rest => (t == 'T' || t == 't' || t == ' ') && isTime true rest
  | s => isTime false s

/-- The value of a word: a number, a truth value or a date. -/
def wordValue (s : List Char) : Except Fault Json :=
  let (negative, signed, body) := match s with
    | '-' :: rest => (true, true, rest)
    | '+' :: rest => (false, true, rest)
    | rest => (false, false, rest)
  let based (base : Nat) (test : Char → Bool) (ds : List Char) : Except Fault Json :=
    if signed then .error .badNumber
    else
      match plainDigits? test false ds with
      | some ds => whole (valueOf base ds)
      | none => .error .badNumber
  match String.ofList s with
  | "true" => .ok (.bool true)
  | "false" => .ok (.bool false)
  | _ =>
    match body with
    | '0' :: 'x' :: ds => based 16 (fun c => (hexValue? c).isSome) ds
    | '0' :: 'o' :: ds => based 8 (fun c => '0' ≤ c && c ≤ '7') ds
    | '0' :: 'b' :: ds => based 2 (fun c => c == '0' || c == '1') ds
    | body =>
      match plainDigits? Char.isDigit false body with
      | some ds =>
        if isWhole ds then whole (if negative then -(valueOf 10 ds : Int) else valueOf 10 ds)
        else .error .badNumber
      | none =>
        if body = ['i', 'n', 'f'] || body = ['n', 'a', 'n'] || isFraction body then
          .ok (.fraction (String.ofList s))
        else if isDate s then .ok .broken
        else .error .badNumber

/-- Whether a character may stand in a word. -/
def isWordChar (c : Char) : Bool := isBare c || c == '+' || c == '.' || c == ':'

/-- Reads a word. A date may have a space before its time. -/
def readWord (s : List Char) : Except Fault (Json × List Char) :=
  let word := s.takeWhile isWordChar
  let rest := s.dropWhile isWordChar
  let (word, rest) := match rest with
    | ' ' :: more =>
      if word.length = 10 && isDate word && more.head?.any Char.isDigit then
        (word ++ ' ' :: more.takeWhile isWordChar, more.dropWhile isWordChar)
      else (word, rest)
    | rest => (word, rest)
  match wordValue word with
  | .ok j => .ok (j, rest)
  | .error e => .error e

end SourceFacts.Toml
