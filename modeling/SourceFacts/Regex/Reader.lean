import SourceFacts.Regex.Basic
import SourceFacts.Text.Part

/-!
# How regular expressions are written

Reads the written form of regular expressions. Flags may change in the middle of a group and
then hold to its end: `i` ignores case, `m` lets line anchors look at every line, `s` lets the
dot match line feeds, `R` counts carriage returns as line ends, `x` skips blanks and comments,
and `u`, which holds at first, speaks of characters rather than bytes.
-/

namespace SourceFacts.Regex

/-- Why a text is not the written form of a regular expression. -/
inductive Fault where
  | unclosedGroup | unopenedGroup | emptyFlags | badFlag | lookAround
  | badGroupName | repeatedGroupName
  | nothingToRepeat | badCount
  | badEscape | badCode | unknownProperty | needsCharacters
  | unclosedClass | badRange | badClassMember
  | tooDeep
deriving Repr, BEq, DecidableEq, Inhabited

/-- The flags in force. -/
structure Mode where
  ignoreCase : Bool
  multiLine : Bool
  dotAll : Bool
  crlf : Bool
  spaced : Bool
  characters : Bool
deriving Repr, Inhabited

/-- The flags that hold at first. -/
def Mode.initial : Mode :=
  { ignoreCase := false, multiLine := false, dotAll := false, crlf := false, spaced := false,
    characters := true }

/-- Sets or clears a flag by its letter; `U`, which only concerns greed, changes nothing. -/
def Mode.set (mode : Mode) (on : Bool) (flag : Char) : Option Mode :=
  match flag with
  | 'i' => some { mode with ignoreCase := on }
  | 'm' => some { mode with multiLine := on }
  | 's' => some { mode with dotAll := on }
  | 'R' => some { mode with crlf := on }
  | 'x' => some { mode with spaced := on }
  | 'u' => some { mode with characters := on }
  | 'U' => some mode
  | _ => none

/-- Skips blanks and comments where they do not count. -/
def skipSpace (mode : Mode) (s : List Char) : List Char :=
  if mode.spaced then go false s else s
where
  go : (comment : Bool) → List Char → List Char
  | _, [] => []
  | true, c :: rest => go (c != '\n') rest
  | false, c :: rest =>
    if Text.isBlank c then go false rest
    else if c = '#' then go true rest
    else c :: rest

/-! ## Sets with names -/

/-- The value of a hexadecimal digit. -/
def hexValue? (c : Char) : Option Nat :=
  if c.isDigit then some (c.toNat - 48)
  else if 'a' ≤ c && c ≤ 'f' then some (c.toNat - 87)
  else if 'A' ≤ c && c ≤ 'F' then some (c.toNat - 55)
  else none

/-- The set of characters between two others. -/
def between (a b : Char) : CharSet := .range a.toNat b.toNat

/-- The named sets of ASCII characters. -/
def asciiSet? (name : String) : Option CharSet :=
  let upper := between 'A' 'Z'
  let lower := between 'a' 'z'
  let digits := between '0' '9'
  match name with
  | "alnum" => some (.unions [digits, upper, lower])
  | "alpha" => some (.union upper lower)
  | "ascii" => some (.range 0 0x7F)
  | "blank" => some (.union (.one '\t') (.one ' '))
  | "cntrl" => some (.union (.range 0 0x1F) (.range 0x7F 0x7F))
  | "digit" => some digits
  | "graph" => some (between '!' '~')
  | "lower" => some lower
  | "print" => some (between ' ' '~')
  | "punct" => some (.unions [between '!' '/', between ':' '@', between '[' '\x60',
      between '\x7b' '~'])
  | "space" => some (.union (.range 9 13) (.one ' '))
  | "upper" => some upper
  | "word" => some (.unions [digits, upper, .one '_', lower])
  | "xdigit" => some (.unions [digits, between 'A' 'F', between 'a' 'f'])
  | _ => none

open Text.Category in
/-- The categories by their names, without case, blanks, dashes and underscores. -/
def categories : List (List String × List Text.Category) := [
  (["lu", "uppercaseletter"], [lu]), (["ll", "lowercaseletter"], [ll]),
  (["lt", "titlecaseletter"], [lt]), (["lc", "casedletter"], [lu, ll, lt]),
  (["lm", "modifierletter"], [lm]), (["lo", "otherletter"], [lo]),
  (["l", "letter"], [lu, ll, lt, lm, lo]),
  (["mn", "nonspacingmark"], [mn]), (["mc", "spacingmark"], [mc]),
  (["me", "enclosingmark"], [me]), (["m", "mark", "combiningmark"], [mn, mc, me]),
  (["nd", "decimalnumber", "digit"], [nd]), (["nl", "letternumber"], [nl]),
  (["no", "othernumber"], [no]), (["n", "number"], [nd, nl, no]),
  (["pc", "connectorpunctuation"], [pc]), (["pd", "dashpunctuation"], [pd]),
  (["ps", "openpunctuation"], [ps]), (["pe", "closepunctuation"], [pe]),
  (["pi", "initialpunctuation"], [pi]), (["pf", "finalpunctuation"], [pf]),
  (["po", "otherpunctuation"], [po]),
  (["p", "punctuation", "punct"], [pc, pd, ps, pe, pi, pf, po]),
  (["sm", "mathsymbol"], [sm]), (["sc", "currencysymbol"], [sc]),
  (["sk", "modifiersymbol"], [sk]), (["so", "othersymbol"], [so]),
  (["s", "symbol"], [sm, sc, sk, so]),
  (["zs", "spaceseparator"], [zs]), (["zl", "lineseparator"], [zl]),
  (["zp", "paragraphseparator"], [zp]), (["z", "separator"], [zs, zl, zp]),
  (["cc", "control", "cntrl"], [cc]), (["cf", "format"], [cf]),
  (["cs", "surrogate"], [cs]), (["co", "privateuse"], [co]), (["cn", "unassigned"], [cn]),
  (["c", "other"], [cc, cf, cs, co, cn])]

/-- The set of a category or property, by its normal name. -/
def namedSet? (name : String) : Option CharSet :=
  match name with
  | "any" => some .everything
  | "ascii" => some (.range 0 0x7F)
  | "assigned" => some (.complement (.category [.cn]))
  | "alphabetic" | "alpha" => some (.category [.lu, .ll, .lt, .lm, .lo, .nl])
  | "uppercase" | "upper" => some (.category [.lu])
  | "lowercase" | "lower" => some (.category [.ll])
  | "whitespace" | "wspace" | "space" => some .blank
  | _ => (categories.find? fun (names, _) => names.contains name).map fun (_, ks) => .category ks

/-- A property name without what does not count in it. -/
def normalName (s : List Char) : String :=
  let s := (s.filter fun c => !(Text.isBlank c || c == '_' || c == '-') && c.toNat < 0x80).map
    Char.toLower
  match s with
  | 'i' :: 's' :: rest => if rest = ['c'] then "isc" else String.ofList rest
  | _ => String.ofList s

/-- The set that a property query names. -/
def property? (query : List Char) : Option CharSet :=
  let valued (name value : List Char) : Option CharSet :=
    if ["gc", "generalcategory"].contains (normalName name) then
      namedSet? (normalName value)
    else none
  match Text.splitAt? ['!', '='] query with
  | some (a, b) => (valued a b).map .complement
  | none =>
    match Text.splitAt? [':'] query with
    | some (a, b) => valued a b
    | none =>
      match Text.splitAt? ['='] query with
      | some (a, b) => valued a b
      | none => namedSet? (normalName query)

/-! ## Escapes -/

/-- What an escape or a plain character stands for. -/
inductive Primitive where
  /-- A character, and whether it may also stand for a single byte. -/
  | literal (c : Char) (byte : Bool)
  | set (s : CharSet)
  | anchor (a : Anchor)
deriving Repr, Inhabited

/-- Reads a number of exactly so many hexadecimal digits. -/
def readHex (mode : Mode) : Nat → Nat → List Char → Except Fault (Nat × List Char)
  | 0, n, s => .ok (n, skipSpace mode s)
  | k + 1, n, s =>
    match skipSpace mode s with
    | [] => .error .badCode
    | c :: rest =>
      match hexValue? c with
      | some d => readHex mode k (16 * n + d) rest
      | none => .error .badCode

/-- Reads hexadecimal digits up to a closing brace. -/
def readHexBraced (mode : Mode) : Nat → Option Nat → List Char → Except Fault (Nat × List Char)
  | 0, _, _ => .error .badCode
  | fuel + 1, n, s =>
    match skipSpace mode s with
    | [] => .error .badCode
    | '\x7d' :: rest =>
      match n with
      | some n => .ok (n, skipSpace mode rest)
      | none => .error .badCode
    | c :: rest =>
      match hexValue? c with
      | some d => readHexBraced mode fuel (some (16 * n.getD 0 + d)) rest
      | none => .error .badCode

/-- The character with the given code. -/
def charOfCode (n : Nat) : Except Fault Char :=
  if h : n.isValidChar then .ok (Char.ofNatAux n h) else .error .badCode

/-- Reads up to a closing brace. -/
def readBraced (mode : Mode) : Nat → List Char → List Char → Option (List Char × List Char)
  | 0, _, _ => none
  | fuel + 1, acc, s =>
    match skipSpace mode s with
    | [] => none
    | '\x7d' :: rest => some (acc.reverse, rest)
    | c :: rest => readBraced mode fuel (c :: acc) rest

/-- Reads the name of a special word edge after its opening brace; nothing if a count stands
there. -/
def readEdgeName (mode : Mode) (s : List Char) : Except Fault (Option (Anchor × List Char)) :=
  let isNameChar (c : Char) : Bool := c.isAlpha || c == '-'
  let ascii := !mode.characters
  match skipSpace mode s with
  | [] => .error .badEscape
  | c :: rest =>
    if isNameChar c then
      match readBraced mode (s.length + 1) [] (c :: rest) with
      | none => .error .badEscape
      | some (name, rest) =>
        match String.ofList name with
        | "start" => .ok (some (.wordStart ascii, rest))
        | "end" => .ok (some (.wordEnd ascii, rest))
        | "start-half" => .ok (some (.wordStartHalf ascii, rest))
        | "end-half" => .ok (some (.wordEndHalf ascii, rest))
        | _ => .error .badEscape
    else .ok none

/-- Reads what follows a backslash. -/
def readEscape (mode : Mode) (s : List Char) : Except Fault (Primitive × List Char) :=
  let ascii := !mode.characters
  let code (digits : Nat) (rest : List Char) : Except Fault (Primitive × List Char) :=
    match skipSpace mode rest with
    | '\x7b' :: rest => do
      let (n, rest) ← readHexBraced mode (rest.length + 1) none rest
      return (.literal (← charOfCode n) false, rest)
    | rest => do
      let (n, rest) ← readHex mode digits 0 rest
      return (.literal (← charOfCode n) (digits == 2), rest)
  let prop (negated : Bool) (rest : List Char) : Except Fault (Primitive × List Char) :=
    if ascii then .error .needsCharacters
    else
      let found : Except Fault (List Char × List Char) :=
        match skipSpace mode rest with
        | [] => .error .badEscape
        | '\x7b' :: rest =>
          match readBraced mode (rest.length + 1) [] rest with
          | some found => .ok found
          | none => .error .badEscape
        | '\\' :: _ => .error .unknownProperty
        | c :: rest => .ok ([c], skipSpace mode rest)
      match found with
      | .error e => .error e
      | .ok (query, rest) =>
        match property? query with
        | none => .error .unknownProperty
        | some a =>
          let a := if mode.ignoreCase then .anyCase false a else a
          .ok (.set (if negated then .complement a else a), rest)
  let plain (wide narrow : CharSet) (negated : Bool) (rest : List Char) :
      Except Fault (Primitive × List Char) :=
    let a := if ascii then narrow else wide
    .ok (.set (if negated then .complement a else a), rest)
  let digits := between '0' '9'
  let blanks := CharSet.union (.range 9 13) (.one ' ')
  let words := CharSet.unions [digits, between 'A' 'Z', .one '_', between 'a' 'z']
  match s with
  | [] => .error .badEscape
  | 'x' :: rest => code 2 rest
  | 'u' :: rest => code 4 rest
  | 'U' :: rest => code 8 rest
  | 'p' :: rest => prop false rest
  | 'P' :: rest => prop true rest
  | 'd' :: rest => plain .digit digits false rest
  | 'D' :: rest => plain .digit digits true rest
  | 's' :: rest => plain .blank blanks false rest
  | 'S' :: rest => plain .blank blanks true rest
  | 'w' :: rest => plain .word words false rest
  | 'W' :: rest => plain .word words true rest
  | 'a' :: rest => .ok (.literal (Char.ofNat 7) false, rest)
  | 'f' :: rest => .ok (.literal (Char.ofNat 12) false, rest)
  | 't' :: rest => .ok (.literal '\t' false, rest)
  | 'n' :: rest => .ok (.literal '\n' false, rest)
  | 'r' :: rest => .ok (.literal '\r' false, rest)
  | 'v' :: rest => .ok (.literal (Char.ofNat 11) false, rest)
  | 'A' :: rest => .ok (.anchor .textStart, rest)
  | 'z' :: rest => .ok (.anchor .textEnd, rest)
  | 'b' :: '\x7b' :: rest => do
    match ← readEdgeName mode rest with
    | some (a, rest) => return (.anchor a, rest)
    | none => return (.anchor (.wordEdge ascii), '\x7b' :: rest)
  | 'b' :: rest => .ok (.anchor (.wordEdge ascii), rest)
  | 'B' :: rest => .ok (.anchor (.noWordEdge ascii), rest)
  | '<' :: rest => .ok (.anchor (.wordStart ascii), rest)
  | '>' :: rest => .ok (.anchor (.wordEnd ascii), rest)
  | c :: rest =>
    if c.toNat < 0x80 && !c.isAlphanum then .ok (.literal c false, rest) else .error .badEscape

/-! ## Classes -/

/-- A set as it counts under the flags. -/
def folded (mode : Mode) (a : CharSet) : CharSet :=
  if mode.ignoreCase then .anyCase (!mode.characters) a else a

/-- Reads a member of a class. -/
def readMember (mode : Mode) : List Char → Except Fault (Primitive × List Char)
  | [] => .error .unclosedClass
  | '\\' :: rest => readEscape mode rest
  | c :: rest => .ok (.literal c false, rest)

/-- The code that a character stands for in a class. -/
def codeIn (mode : Mode) (c : Char) (byte : Bool) : Except Fault Nat :=
  if mode.characters || c.toNat < 0x80 || byte then .ok c.toNat else .error .needsCharacters

/-- The set that a member of a class stands for. -/
def memberSet (mode : Mode) : Primitive → Except Fault CharSet
  | .literal c single => do
    let n ← codeIn mode c single
    return .range n n
  | .set a => .ok a
  | .anchor _ => .error .badClassMember

/-- Reads a member of a class, or a range of them. -/
def readRange (mode : Mode) (s : List Char) : Except Fault (CharSet × List Char) := do
  let (first, rest) ← readMember mode s
  match skipSpace mode rest with
  | [] => .error .unclosedClass
  | '-' :: more =>
    match skipSpace mode more with
    | ']' :: _ | '-' :: _ => return (← memberSet mode first, skipSpace mode rest)
    | [] => .error .unclosedClass
    | more =>
      let (last, rest) ← readMember mode more
      match first, last with
      | .literal a abyte, .literal b bbyte =>
        let a ← codeIn mode a abyte
        let b ← codeIn mode b bbyte
        if a ≤ b then return (.range a b, rest) else .error .badRange
      | _, _ => .error .badClassMember
  | rest => return (← memberSet mode first, rest)

/-- Reads the name of an ASCII set after its opening bracket, if one stands there. -/
def readAsciiSet? (s : List Char) : Option (CharSet × List Char) :=
  match s with
  | ':' :: rest =>
    let (negated, rest) := match rest with
      | '^' :: rest => (true, rest)
      | rest => (false, rest)
    match rest.dropWhile (· != ':') with
    | ':' :: ']' :: after =>
      (asciiSet? (String.ofList (rest.takeWhile (· != ':')))).map fun a =>
        (if negated then .complement a else a, after)
    | _ => none
  | _ => none

/-- How two sets of a class are combined. -/
inductive SetOp where
  | meet | minus | either
deriving Repr, Inhabited

/-- Combines what was read before with the latest set. -/
def SetOp.apply (mode : Mode) : Option (SetOp × CharSet) → CharSet → CharSet
  | none, b => b
  | some (.meet, a), b => .meet (folded mode a) (folded mode b)
  | some (.minus, a), b => .minus (folded mode a) (folded mode b)
  | some (.either, a), b => .either (folded mode a) (folded mode b)

/-- Reads the dashes, or else the closing bracket, that stand for themselves at the start of a
class. -/
def readOpening (mode : Mode) : Nat → CharSet → List Char → CharSet × List Char
  | 0, acc, s => (acc, s)
  | fuel + 1, acc, s =>
    match skipSpace mode s with
    | '-' :: rest => readOpening mode fuel (.union acc (.one '-')) rest
    | ']' :: rest => if acc = .none then (.one ']', rest) else (acc, ']' :: rest)
    | rest => (acc, rest)

/-- Reads a class after its opening bracket. -/
def readClass (mode : Mode) : Nat → List Char → Except Fault (CharSet × List Char)
  | 0, _ => .error .tooDeep
  | fuel + 1, s =>
    let (negated, s) := match skipSpace mode s with
      | '^' :: rest => (true, rest)
      | rest => (false, rest)
    let (opening, s) := readOpening mode (s.length + 1) .none s
    do
      let (a, rest) ← members fuel none opening s
      let a := folded mode a
      return (if negated then .complement a else a, rest)
where
  /-- Reads members up to the closing bracket. -/
  members : Nat → Option (SetOp × CharSet) → CharSet → List Char →
      Except Fault (CharSet × List Char)
  | 0, _, _, _ => .error .tooDeep
  | fuel + 1, before, acc, s =>
    match skipSpace mode s with
    | [] => .error .unclosedClass
    | ']' :: rest => .ok (SetOp.apply mode before acc, rest)
    | '&' :: '&' :: rest => members fuel (some (.meet, SetOp.apply mode before acc)) .none rest
    | '-' :: '-' :: rest => members fuel (some (.minus, SetOp.apply mode before acc)) .none rest
    | '~' :: '~' :: rest =>
      members fuel (some (.either, SetOp.apply mode before acc)) .none rest
    | '[' :: rest =>
      match readAsciiSet? rest with
      | some (a, rest) => members fuel before (.union acc a) rest
      | none => do
        let (a, rest) ← readClass mode fuel rest
        members fuel before (.union acc a) rest
    | rest => do
      let (a, rest) ← readRange mode rest
      members fuel before (.union acc a) rest

/-! ## Expressions -/

/-- The expression for a character or a byte. -/
def literal (mode : Mode) (c : Char) (byte : Bool) : Regex :=
  if !mode.characters && byte && 0x80 ≤ c.toNat then .byte (.one c)
  else if mode.characters || c.toNat < 0x80 then .char (folded mode (.one c))
  else .char (.one c)

/-- The expression for a set of characters or bytes. -/
def setOf (mode : Mode) (a : CharSet) : Regex := if mode.characters then .char a else .byte a

/-- The expression for a dot. -/
def dot (mode : Mode) : Regex :=
  setOf mode <|
    if mode.dotAll then .everything
    else if mode.crlf then .complement (.union (.one '\n') (.one '\r'))
    else .complement (.one '\n')

/-- Reads a decimal number. -/
def readCount (mode : Mode) (s : List Char) : Option Nat × List Char :=
  go (s.length + 1) none (s.dropWhile Text.isBlank)
where
  go : Nat → Option Nat → List Char → Option Nat × List Char
  | 0, n, s => (n, s)
  | fuel + 1, n, s =>
    match s with
    | c :: rest =>
      if c.isDigit then go fuel (some (10 * n.getD 0 + (c.toNat - 48))) (skipSpace mode rest)
      else (n, s.dropWhile Text.isBlank)
    | [] => (n, [])

/-- Reads how often to repeat, after the opening brace. -/
def readBounds (mode : Mode) (s : List Char) :
    Except Fault (Nat × Option Nat × List Char) :=
  let fits (n : Nat) : Bool := n < UInt32.size
  let (least, s) := readCount mode (skipSpace mode s)
  match least with
  | none => .error .badCount
  | some least =>
    if !fits least then .error .badCount
    else
      match s with
      | '\x7d' :: rest => .ok (least, some least, rest)
      | ',' :: rest =>
        match skipSpace mode rest with
        | '\x7d' :: rest => .ok (least, none, rest)
        | rest =>
          match readCount mode rest with
          | (some most, '\x7d' :: rest) =>
            if least ≤ most && fits most then .ok (least, some most, rest) else .error .badCount
          | _ => .error .badCount
      | _ => .error .badCount

/-- Reads flags up to a colon or a closing parenthesis, which stays. -/
def readFlags (mode : Mode) (on : Bool) (seen : List Char) :
    List Char → Except Fault (Mode × List Char × List Char)
  | [] => .error .badFlag
  | c :: rest =>
    if c = ':' || c = ')' then
      if seen.head? == some '-' then .error .badFlag else .ok (mode, seen, c :: rest)
    else if seen.contains c then .error .badFlag
    else if c = '-' then readFlags mode false (c :: seen) rest
    else
      match mode.set on c with
      | some mode => readFlags mode on (c :: seen) rest
      | none => .error .badFlag

/-- Whether a character may stand in the name of a group. -/
def isGroupNameChar (first : Bool) (c : Char) : Bool :=
  let k := Text.Category.ofCode c.toNat
  let letter := k.isLetter || k == .nl
  c == '_' || letter
    || (!first && (c == '.' || c == '[' || c == ']' || k == .nd || k == .no))

/-- Reads the name of a group. -/
def readGroupName (names : List String) (s : List Char) :
    Except Fault (List String × List Char) :=
  let name := s.takeWhile (· != '>')
  match s.dropWhile (· != '>'), name with
  | '>' :: rest, c :: more =>
    if isGroupNameChar true c && more.all (isGroupNameChar false) then
      let name := String.ofList name
      if names.contains name then .error .repeatedGroupName else .ok (name :: names, rest)
    else .error .badGroupName
  | _, _ => .error .badGroupName

/-- The sequence of items, the latest of which comes first. Flags are items without an
expression. -/
def sequence (items : List (Option Regex)) : Regex :=
  items.foldl (fun acc item =>
    match item with
    | none => acc
    | some r => if acc = .unit then r else .seq r acc) .unit

/-- Reads alternatives up to the end or a closing parenthesis, which stays. `names` are the
group names so far, `before` the alternatives so far and `items` the parts of the present
one, the latest first. -/
def readBody : (fuel depth : Nat) → Mode → (names : List String) → (before : Option Regex) →
    (items : List (Option Regex)) → List Char → Except Fault (Regex × List String × List Char)
  | 0, _, _, _, _, _, _ => .error .tooDeep
  | fuel + 1, depth, mode, names, before, items, s =>
    let done : Regex :=
      match before with
      | none => sequence items
      | some r => .alt r (sequence items)
    let again (least : Nat) (most : Option Nat) (rest : List Char) :
        Except Fault (Regex × List String × List Char) :=
      match items with
      | some r :: items =>
        let rest := match rest with
          | '?' :: rest => rest
          | rest => rest
        let r : Regex :=
          match least, most with
          | 0, none => .star r
          | 0, some 1 => .alt r .unit
          | _, _ => .repeated r least most
        readBody fuel depth mode names before (some r :: items) rest
      | _ => .error .nothingToRepeat
    match skipSpace mode s with
    | [] => .ok (done, names, [])
    | ')' :: rest => .ok (done, names, ')' :: rest)
    | '|' :: rest => readBody fuel depth mode names (some done) [] rest
    | '(' :: rest =>
      let group (inner : Mode) (names : List String) (rest : List Char) :
          Except Fault (Regex × List String × List Char) :=
        if depth = 0 then .error .tooDeep
        else do
          let (r, names, rest) ← readBody fuel (depth - 1) inner names none [] rest
          match rest with
          | ')' :: rest => readBody fuel depth mode names before (some r :: items) rest
          | _ => .error .unclosedGroup
      match skipSpace mode rest with
      | '?' :: '=' :: _ | '?' :: '!' :: _ | '?' :: '<' :: '=' :: _ | '?' :: '<' :: '!' :: _ =>
        .error .lookAround
      | '?' :: 'P' :: '<' :: rest | '?' :: '<' :: rest => do
        let (names, rest) ← readGroupName names rest
        group mode names rest
      | '?' :: rest => do
        let (inner, seen, rest) ← readFlags mode true [] rest
        match rest with
        | ')' :: rest =>
          if seen.isEmpty then .error .emptyFlags
          else readBody fuel depth inner names before (none :: items) rest
        | rest => group inner names (rest.drop 1)
      | rest => group mode names rest
    | '[' :: rest => do
      let (a, rest) ← readClass mode (rest.length + 2) rest
      readBody fuel depth mode names before (some (setOf mode a) :: items) rest
    | '*' :: rest => again 0 none rest
    | '+' :: rest => again 1 none rest
    | '?' :: rest => again 0 (some 1) rest
    | '\x7b' :: rest =>
      if items.head?.any Option.isSome then do
        let (least, most, rest) ← readBounds mode rest
        again least most (skipSpace mode rest)
      else .error .nothingToRepeat
    | '.' :: rest => readBody fuel depth mode names before (some (dot mode) :: items) rest
    | '^' :: rest =>
      let a : Anchor := if mode.multiLine then .lineStart mode.crlf else .textStart
      readBody fuel depth mode names before (some (.anchor a) :: items) rest
    | '$' :: rest =>
      let a : Anchor := if mode.multiLine then .lineEnd mode.crlf else .textEnd
      readBody fuel depth mode names before (some (.anchor a) :: items) rest
    | '\\' :: rest => do
      let (p, rest) ← readEscape mode rest
      let r := match p with
        | .literal c single => literal mode c single
        | .set a => setOf mode a
        | .anchor a => .anchor a
      readBody fuel depth mode names before (some r :: items) rest
    | c :: rest => readBody fuel depth mode names before (some (literal mode c false) :: items) rest

/-- How deep groups may nest. -/
def nestLimit : Nat := 250

/-- The regular expression with the given written form. -/
def ofText (text : String) : Except Fault Regex := do
  let s := text.toList
  let (r, _, rest) ← readBody (2 * s.length + 2) nestLimit .initial [] none [] s
  if rest.isEmpty then return r else .error .unopenedGroup

end SourceFacts.Regex
