import SourceFacts.Files.Tree
import SourceFacts.Text.Blank
import SourceFacts.Text.Category

/-!
# Variables of the environment

A file can add variables to the environment; those that are set already stay as they are. Each
line sets a variable. Values may be quoted, and outside single quotes a dollar sign puts in the
value of another variable. A quoted value may go over several lines.
-/

namespace SourceFacts

/-- The variables of the environment. -/
structure Environment where
  settings : List (String × String)
deriving Repr, BEq, DecidableEq, Inhabited

namespace Environment

/-- The value of a variable. -/
def get? (e : Environment) (name : String) : Option String :=
  (e.settings.find? (·.1 == name)).map (·.2)

/-- Sets a variable unless it is set. -/
def add (e : Environment) (name value : String) : Environment :=
  if (e.get? name).isSome then e else ⟨e.settings ++ [(name, value)]⟩

/-- Why a file of variables could not be read to its end. -/
inductive Fault where
  /-- A line is not understood, from a place in it on. -/
  | badLine (line : String) (place : Nat)
  | unreadable (f : FileFault)
deriving Repr, BEq, DecidableEq, Inhabited

/-- The text of a fault. -/
def Fault.message : Fault → String
  | .badLine line place =>
    "Error parsing line: '" ++ line ++ "', error at line index: " ++ toString place
  | .unreadable f => f.message

/-! ## Lines -/

/-- What the end of a line stands in. -/
inductive Quoting where
  | plain
  /-- After white space, where a comment may begin. -/
  | blank
  | escape
  | single
  | singleEscape
  | double
  | doubleEscape
deriving Repr, BEq, DecidableEq, Inhabited

/-- A single quote. -/
def singleQuote : Char := '\x27'

/-- What begins outside quotes with a character. -/
def Quoting.opening (c : Char) : Quoting :=
  if c = '\\' then .escape
  else if c = '"' then .double
  else if c = singleQuote then .single
  else .plain

/-- Where quoting stands after a character. -/
def Quoting.after (c : Char) : Quoting → Quoting
  | .plain => if Text.isBlank c && c != '\n' && c != '\r' then .blank else opening c
  | .blank => opening c
  | .escape => .plain
  | .single => if c = '\\' then .singleEscape else if c = singleQuote then .plain else .single
  | .singleEscape => .single
  | .double => if c = '\\' then .doubleEscape else if c = '"' then .plain else .double
  | .doubleEscape => .double

/-- Goes through a line. The result is where quoting stands at its end; or, if a comment begins
in it, what stands before. `passed` is the line so far, the latest character first. -/
def scanLine : Quoting → (passed : List Char) → List Char → Quoting ⊕ List Char
  | q, _, [] => .inl q
  | q, passed, c :: rest =>
    if q = .blank ∧ c = '#' then .inr passed.reverse
    else scanLine (q.after c) (c :: passed) rest

/-- A line without the characters that end it. -/
def withoutEnd (line : List Char) : List Char :=
  match line.reverse with
  | '\n' :: '\r' :: rest => rest.reverse
  | '\n' :: rest => rest.reverse
  | _ => line

/-- Whether a line is a comment. -/
def isComment (line : List Char) : Bool := (Text.trimFront line).head? == some '#'

/-- How many bytes a text takes. -/
def byteCount (s : List Char) : Nat := s.foldl (fun n c => n + c.utf8Size) 0

/-- Joins lines over which a quoted value goes; `before` are those joined so far. What cannot be
read ends the list. -/
def joinLines : (before : List Char) → Quoting → List (Except FileFault (List Char)) →
    List (Except Fault (List Char))
  | before, q, [] =>
    if q = .plain then []
    else [.error (.badLine (String.ofList before) (byteCount before))]
  | _, _, .error f :: _ => [.error (.unreadable f)]
  | before, q, .ok line :: rest =>
    if isComment (before ++ line) then joinLines [] .plain rest
    else
      match scanLine q [] line with
      | .inr kept => .ok (before ++ kept) :: joinLines [] .plain rest
      | .inl .plain => .ok (withoutEnd (before ++ line)) :: joinLines [] .plain rest
      | .inl q => joinLines (before ++ line) q rest

/-! ## Values -/

/-- Where the reading of a value stands. -/
inductive Mode where
  | text
  | escape
  | single
  /-- In the name of a variable, which is read in reverse. -/
  | name (reversed : List Char)
  /-- In the name of a variable in braces. -/
  | braced (reversed : List Char)
  /-- After the value. -/
  | ended
deriving Repr, BEq, DecidableEq, Inhabited

/-- Whether a character can stand in the name of a variable after a dollar sign. -/
def isNameChar (c : Char) : Bool :=
  c.isAlphanum || (127 < c.toNat && Text.isWordChar c && !(Text.Category.ofCode c.toNat).isMark)

/-- The value of the variable with a name given in reverse, empty if it is not set. -/
def valueOf (e : Environment) (reversed : List Char) : List Char :=
  ((e.get? (String.ofList reversed.reverse)).getD "").toList

/-- The character that stands for an escaped one. -/
def escaped? (c : Char) : Option Char :=
  if c = 'n' then some '\n'
  else if c = '\\' || c = singleQuote || c = '"' || c = '$' || c = ' ' then some c
  else none

/-- Reads a value; `double` says that a double quote is open, and `place` counts the characters
read. Fails with the place of a character that cannot stand there, or with nothing if a quote
or brace is left open. -/
def readValue (e : Environment) :
    Mode → (double : Bool) → (place : Nat) → List Char → Except (Option Nat) (List Char)
  | .single, _, _, [] => .error none
  | .braced _, _, _, [] => .error none
  | .name reversed, double, _, [] => if double then .error none else .ok (valueOf e reversed)
  | _, double, _, [] => if double then .error none else .ok []
  | .ended, double, place, c :: rest =>
    if c = ' ' || c = '\t' then readValue e .ended double (place + 1) rest
    else if c = '#' then .ok []
    else .error (some place)
  | .escape, double, place, c :: rest =>
    match escaped? c with
    | none => .error (some place)
    | some c => do return c :: (← readValue e .text double (place + 1) rest)
  | .single, double, place, c :: rest =>
    if c = singleQuote then readValue e .text double (place + 1) rest
    else do return c :: (← readValue e .single double (place + 1) rest)
  | .name reversed, double, place, c :: rest =>
    if isNameChar c then readValue e (.name (c :: reversed)) double (place + 1) rest
    else if c = '\x7b' ∧ reversed = [] then readValue e (.braced []) double (place + 1) rest
    else if c = '$' then do
      return valueOf e reversed ++ (← readValue e (.name []) double (place + 1) rest)
    else do
      return valueOf e reversed ++ c :: (← readValue e .text double (place + 1) rest)
  | .braced reversed, double, place, c :: rest =>
    if c = '\x7d' then do
      return valueOf e reversed ++ (← readValue e .text double (place + 1) rest)
    else readValue e (.braced (c :: reversed)) double (place + 1) rest
  | .text, double, place, c :: rest =>
    if c = '$' then readValue e (.name []) double (place + 1) rest
    else if c = '\\' then readValue e .escape double (place + 1) rest
    else if c = '"' then readValue e .text (!double) (place + 1) rest
    else if double then do return c :: (← readValue e .text true (place + 1) rest)
    else if c = singleQuote then readValue e .single false (place + 1) rest
    else if c = ' ' || c = '\t' then readValue e .ended false (place + 1) rest
    else do return c :: (← readValue e .text false (place + 1) rest)

/-! ## Settings -/

/-- Whether a character can begin the name that a line sets. -/
def startsKey (c : Char) : Bool := c.isAlpha || c == '_'

/-- Whether a character can stand in the name that a line sets. -/
def isKeyChar (c : Char) : Bool := c.isAlphanum || c == '_' || c == '.'

/-- The name at the front of a text, blanks after it skipped. Fails with what is left. -/
def readKey (s : List Char) : Except (List Char) (String × List Char) :=
  if s.head?.any startsKey then
    .ok (String.ofList (s.takeWhile isKeyChar), Text.trimFront (s.dropWhile isKeyChar))
  else .error s

/-- The name that a line sets, and what follows the equals sign. The word `export` may stand in
front of the name. Fails with what is left where the line is not understood. -/
def readSetting (s : List Char) : Except (List Char) (String × List Char) := do
  let (key, rest) ← readKey s
  match rest with
  | '=' :: rest => return (key, Text.trimFront rest)
  | rest =>
    if key = "export" then
      let (key, rest) ← readKey rest
      match rest with
      | '=' :: rest => return (key, Text.trimFront rest)
      | rest => throw rest
    else throw rest

/-- The variable that a line sets, if any. -/
def readLine (e : Environment) (line : List Char) : Except Fault (Option (String × String)) :=
  let whole := Text.trimBack line
  let s := Text.trimFront whole
  if s.isEmpty || s.head? == some '#' then .ok none
  else
    match readSetting s with
    | .error rest =>
      .error (.badLine (String.ofList line) (byteCount whole - byteCount rest))
    | .ok (key, value) =>
      if value.isEmpty || value.head? == some '#' then .ok (some (key, ""))
      else
        match readValue e .text false 0 value with
        | .ok v => .ok (some (key, String.ofList v))
        | .error place =>
          .error (.badLine (String.ofList value) (place.getD (byteCount value - 1)))

/-- Adds the variables that lines set. A line that is not understood ends it. -/
def addLines (e : Environment) : List (Except Fault (List Char)) → Environment × Option Fault
  | [] => (e, none)
  | .error f :: _ => (e, some f)
  | .ok line :: rest =>
    match e.readLine line with
    | .error f => (e, some f)
    | .ok none => e.addLines rest
    | .ok (some (key, value)) => (e.add key value).addLines rest

/-- Splits bytes after each line feed. -/
def splitLines (bytes : List UInt8) : List (List UInt8) :=
  bytes.foldr (fun b lines =>
    if b = 10 then [b] :: lines
    else
      match lines with
      | (c :: line) :: rest => (b :: c :: line) :: rest
      | lines => [b] :: lines) []

/-- The lines of a file, without a byte order mark. -/
def linesOf (content : ByteArray) : List (Except FileFault (List Char)) :=
  let bytes := match content.toList with
    | 0xEF :: 0xBB :: 0xBF :: rest => rest
    | bytes => bytes
  (splitLines bytes).map fun line =>
    match Text.Utf8.decode ⟨line.toArray⟩ with
    | .ok text => .ok text.toList
    | .error _ => .error .notText

/-- The file in the current directory that is read at the start. -/
def fileName : String := ".env"

/-- The environment with the variables of the file in the current directory, if there is one,
and what was wrong with it. -/
def withFile (fs : FileSystem) (e : Environment) : Environment × Option Fault :=
  if fs.isFile fileName then
    match fs.read fileName with
    | .ok content => e.addLines (joinLines [] .plain (linesOf content))
    | .error f => (e, some (.unreadable f))
  else (e, none)

end Environment

end SourceFacts
