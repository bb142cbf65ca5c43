import SourceFacts.Regex.Basic

/-!
# Globs

Patterns of file names. A star stands for anything, slashes included, a question mark for one
byte, brackets for one byte out of a class, braces for any of several patterns. Two stars that
make up a whole part of a path stand for any number of parts.
-/

namespace SourceFacts

/-- A part of a glob. -/
inductive Glob.Token where
  | literal (c : Char)
  | any
  | star
  /-- Any number of parts at the front. -/
  | anyFront
  /-- Any number of parts at the end. -/
  | anyBack
  /-- Any number of parts in the middle. -/
  | anyMiddle
  | oneOf (negated : Bool) (ranges : List (Char × Char))
  | choice (branches : List (List Token))
deriving Inhabited

/-- A glob. -/
structure Glob where
  tokens : List Glob.Token
deriving Inhabited

namespace Glob

/-- Why a text is not a glob. -/
inductive Fault where
  | unclosedClass
  | badRange (first last : Char)
  | unopenedChoice
  | unclosedChoice
  | danglingEscape
deriving Repr, BEq, DecidableEq, Inhabited

/-- The text of a fault. -/
def Fault.message : Fault → String
  | .unclosedClass => "unclosed character class; missing ']'"
  | .badRange a b =>
    "invalid range; '" ++ String.singleton a ++ "' > '" ++ String.singleton b ++ "'"
  | .unopenedChoice => "unopened alternate group; missing '\x7b'"
  | .unclosedChoice => "unclosed alternate group; missing '\x7d'"
  | .danglingEscape => "dangling '\\'"

/-! ## Reading -/

/-- Reads a class after its opening bracket. `ranges` are those read so far, the latest first;
`open_` says that the latest awaits its end. -/
def readClass (negated : Bool) : (first : Bool) → (pending : Bool) →
    (ranges : List (Char × Char)) → List Char → Except Fault (Token × List Char)
  | _, _, _, [] => .error .unclosedClass
  | first, pending, ranges, c :: rest =>
    if c = ']' && !first then
      let ranges := if pending then ('-', '-') :: ranges else ranges
      .ok (.oneOf negated ranges.reverse, rest)
    else if c = '-' && !first && !pending then readClass negated false true ranges rest
    else if pending then
      match ranges with
      | (a, _) :: more =>
        if c < a then .error (.badRange a c)
        else readClass negated false false ((a, c) :: more) rest
      | [] => readClass negated false false [(c, c)] rest
    else readClass negated false false ((c, c) :: ranges) rest

/-- Where the reading of a glob stands: the branches of the choices that are open, innermost
first, each with its latest branch first and the tokens of a branch latest first. -/
abbrev Frames := List (List (List Token))

/-- Adds a token to the present branch. -/
def push (t : Token) : Frames → Frames
  | (branch :: branches) :: frames => ((t :: branch) :: branches) :: frames
  | frames => frames

/-- The tokens of the present branch. -/
def present : Frames → List Token
  | (branch :: _) :: _ => branch
  | _ => []

/-- Whether a choice is open. -/
def inChoice : Frames → Bool
  | _ :: _ :: _ => true
  | _ => false

/-- Two stars that are not a whole part count as stars. -/
def twoStars (frames : Frames) : Frames := push .star (push .star frames)

/-- Replaces the latest token, a slash, by stars that are a whole part. -/
def wholePart (t : Token) : Frames → Frames
  | ((last :: branch) :: branches) :: frames =>
    let t := match last with
      | .anyFront => .anyFront
      | .anyBack => .anyBack
      | _ => t
    ((t :: branch) :: branches) :: frames
  | frames => frames

/-- Reads what follows two stars, given the character before them. -/
def afterStars (before : Option Char) (frames : Frames) (s : List Char) : Frames × List Char :=
  if (present frames).isEmpty then
    match s with
    | [] => (push .anyFront frames, [])
    | '/' :: rest => (push .anyFront frames, rest)
    | s => (twoStars frames, s)
  else if before != some '/' &&
      (!inChoice frames || (before != some ',' && before != some '\x7b')) then
    (twoStars frames, s)
  else
    match s with
    | [] => (wholePart .anyBack frames, [])
    | '/' :: rest => (wholePart .anyMiddle frames, rest)
    | c :: rest =>
      if (c = ',' || c = '\x7d') && inChoice frames then
        (wholePart .anyBack frames, c :: rest)
      else (twoStars frames, c :: rest)

/-- Reads a glob, given the character before. -/
def read : (fuel : Nat) → (before : Option Char) → Frames → List Char → Except Fault Frames
  | 0, _, frames, _ => .ok frames
  | fuel + 1, before, frames, s =>
    match s with
    | [] => .ok frames
    | '?' :: rest => read fuel (some '?') (push .any frames) rest
    | '*' :: '*' :: rest =>
      let (frames, after) := afterStars before frames rest
      let before := if after.length < rest.length then some '/' else some '*'
      read fuel before frames after
    | '*' :: rest => read fuel (some '*') (push .star frames) rest
    | '[' :: rest => do
      let (negated, body) := match rest with
        | '!' :: body | '^' :: body => (true, body)
        | body => (false, body)
      let (t, rest) ← readClass negated true false [] body
      read fuel (some ']') (push t frames) rest
    | '\x7b' :: rest => read fuel (some '\x7b') ([[]] :: frames) rest
    | '\x7d' :: rest =>
      match frames with
      | branches :: outer :: frames =>
        let t := Token.choice (branches.map List.reverse).reverse
        read fuel (some '\x7d') (push t (outer :: frames)) rest
      | _ => .error .unopenedChoice
    | ',' :: rest =>
      if inChoice frames then
        match frames with
        | branches :: frames => read fuel (some ',') (([] :: branches) :: frames) rest
        | [] => .ok []
      else read fuel (some ',') (push (.literal ',') frames) rest
    | ['\\'] => .error .danglingEscape
    | '\\' :: c :: rest => read fuel (some c) (push (.literal c) frames) rest
    | c :: rest => read fuel (some c) (push (.literal c) frames) rest

/-- The glob with the given written form. -/
def ofText (text : String) : Except Fault Glob := do
  let s := text.toList
  match ← read (s.length + 1) none [[[]]] s with
  | [[branch]] => return ⟨branch.reverse⟩
  | _ => throw .unclosedChoice

/-! ## Matching -/

/-- Any byte. -/
def anyByte : Regex := .byte .everything

/-- Any bytes. -/
def anyBytes : Regex := .star anyByte

/-- These very bytes, one after the other. -/
def exactBytes : List UInt8 → Regex
  | [] => .unit
  | b :: rest => .seq (.byte (.range b.toNat b.toNat)) (exactBytes rest)

/-- A slash. -/
def slash : Regex := exactBytes [47]

/-- The byte ranges that a range of characters is written as: its first and last bytes join, and
the other bytes of its ends stand for themselves. -/
def byteRanges (a b : Char) : List CharSet :=
  let ones (bs : List UInt8) : List CharSet := bs.map fun n => .range n.toNat n.toNat
  let first := String.utf8EncodeChar a
  if a = b then ones first
  else
    match first.reverse, String.utf8EncodeChar b with
    | m :: before, n :: after =>
      ones before.reverse ++ [.range m.toNat n.toNat] ++ ones after
    | _, _ => []

mutual

/-- The expression for a token; nothing for a choice without branches that say anything. -/
def tokenRegex : Token → Regex
  | .literal c => exactBytes (String.utf8EncodeChar c)
  | .any => anyByte
  | .star => anyBytes
  | .anyFront => .alt (.alt slash .unit) (.seq anyBytes slash)
  | .anyBack => .seq slash anyBytes
  | .anyMiddle => .alt slash (.seq slash (.seq anyBytes slash))
  | .oneOf negated ranges =>
    let s := CharSet.unions (ranges.flatMap fun (a, b) => byteRanges a b)
    .byte (if negated then .complement s else s)
  | .choice branches =>
    match branchRegexes branches with
    | [] => .unit
    | r :: rest => rest.foldl .alt r

/-- The expression for tokens in a row. -/
def rowRegex : List Token → Regex
  | [] => .unit
  | t :: rest => .seq (tokenRegex t) (rowRegex rest)

/-- The expressions for the branches that say anything. -/
def branchRegexes : List (List Token) → List Regex
  | [] => []
  | b :: rest => if saysNothing b then branchRegexes rest else rowRegex b :: branchRegexes rest

/-- Whether tokens say nothing at all. -/
def saysNothing : List Token → Bool
  | [] => true
  | .choice branches :: rest => allSayNothing branches && saysNothing rest
  | _ :: _ => false

/-- Whether no branch says anything. -/
def allSayNothing : List (List Token) → Bool
  | [] => true
  | b :: rest => saysNothing b && allSayNothing rest

end

/-- The expression for a glob. -/
def regex (g : Glob) : Regex :=
  let body := match g.tokens with
    | [.anyFront] => anyBytes
    | tokens => rowRegex tokens
  .seq (.anchor .textStart) (.seq body (.anchor .textEnd))

/-- Whether a name is matched from end to end. -/
def accepts (g : Glob) (name : String) : Bool := g.regex.matchesIn name

end Glob

end SourceFacts
