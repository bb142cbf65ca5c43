import SourceFacts.Query.Fitting
import SourceFacts.Regex.Reader

/-!
# How queries are written

Reads the written form of queries: patterns in parentheses, choices in brackets, quoted tokens,
roles before a colon, captures after an at sign, and predicates that start with a number sign.
A query may only speak of kinds and roles that the grammar knows, and of children that nodes
can have.
-/

namespace SourceFacts.Query

open Syntax (Vocabulary)

/-- Why a text is not the written form of a query. -/
inductive Fault where
  | malformed
  | unknownKind (name : String)
  | unknownRole (name : String)
  | unknownCapture (name : String)
  | noFamily (name : String)
  | wrongOperands (predicate : String)
  /-- Some node never has the children asked for. -/
  | impossible
  | badRegex (fault : Regex.Fault)
  | tooDeep
deriving Repr, Inhabited

/-- What has been read apart from patterns: capture names in order of first use, and the
predicates of the present pattern, the latest first. -/
structure Draft where
  captureNames : Array String
  predicates : List Predicate
deriving Inhabited

/-- A reader: what it reads, or why it cannot. -/
abbrev Reader := StateT Draft (Except Fault)

/-- Skips blanks and comments. -/
def skipBlanks : (comment : Bool) → List Char → List Char
  | _, [] => []
  | true, c :: rest => skipBlanks (c != '\n') rest
  | false, c :: rest =>
    if Text.isBlank c then skipBlanks false rest
    else if c = ';' then skipBlanks true rest
    else c :: rest

/-- Whether a character may start a name. -/
def startsName (c : Char) : Bool := c.isAlphanum || c == '_' || c == '-'

/-- Whether a character may stand in a name. -/
def isNameChar (c : Char) : Bool := startsName c || c == '.'

/-- Reads a name. -/
def readName (s : List Char) : Reader (String × List Char) :=
  match s with
  | [] => throw .malformed
  | c :: _ =>
    if startsName c then
      return (String.ofList (s.takeWhile isNameChar), s.dropWhile isNameChar)
    else throw .malformed

/-- Reads a quoted text after its opening quote. -/
def readQuoted (acc : List Char) : List Char → Reader (String × List Char)
  | [] => throw .malformed
  | ['\\'] => throw .malformed
  | '\\' :: c :: rest =>
    let c := match c with
      | 'n' => '\n'
      | 'r' => '\r'
      | 't' => '\t'
      | '0' => Char.ofNat 0
      | c => c
    readQuoted (c :: acc) rest
  | '"' :: rest => return (String.ofList acc.reverse, rest)
  | '\n' :: _ => throw .malformed
  | c :: rest => readQuoted (c :: acc) rest

/-- The number of a capture name, a new one if it was not used before. -/
def numberOf (name : String) : Reader Nat := do
  let draft ← get
  match draft.captureNames.findIdx? (· == name) with
  | some i => return i
  | none =>
    set { draft with captureNames := draft.captureNames.push name }
    return draft.captureNames.size

/-! ## Predicates -/

/-- Reads the operands of a predicate and the closing parenthesis. -/
def readOperands : (fuel : Nat) → List Operand → List Char → Reader (List Operand × List Char)
  | 0, _, _ => throw .tooDeep
  | fuel + 1, acc, s =>
    match skipBlanks false s with
    | ')' :: rest => return (acc.reverse, skipBlanks false rest)
    | '@' :: rest => do
      let (name, rest) ← readName rest
      match (← get).captureNames.findIdx? (· == name) with
      | some i => readOperands fuel (.capture i :: acc) rest
      | none => throw (.unknownCapture name)
    | '"' :: rest => do
      let (text, rest) ← readQuoted [] rest
      readOperands fuel (.text text :: acc) rest
    | rest => do
      let (text, rest) ← readName rest
      readOperands fuel (.text text :: acc) rest

/-- The operands as texts, if none of them is a capture. -/
def textsOf : List Operand → Option (List String)
  | [] => some []
  | .text s :: rest => (textsOf rest).map (s :: ·)
  | .capture _ :: _ => none

/-- Whether the operands make a property: a name and perhaps a value, and perhaps one capture. -/
def isProperty (operands : List Operand) : Bool :=
  let texts := operands.filter fun
    | .text _ => true
    | .capture _ => false
  let captures := operands.length - texts.length
  operands.length ≤ 3 && captures ≤ 1 && (texts.length == 1 || texts.length == 2)

/-- The condition that a predicate states. -/
def predicateOf (name : String) (operands : List Operand) : Except Fault Predicate :=
  let wrong : Except Fault Predicate := .error (.wrongOperands name)
  let equal (positive every : Bool) : Except Fault Predicate :=
    match operands with
    | [.capture i, other] => .ok (.equal positive every i other)
    | _ => wrong
  let matched (positive every : Bool) : Except Fault Predicate :=
    match operands with
    | [.capture i, .text s] =>
      match Regex.ofText s with
      | .ok r => .ok (.matched positive every i r)
      | .error e => .error (.badRegex e)
    | _ => wrong
  let among (positive : Bool) : Except Fault Predicate :=
    match operands with
    | .capture i :: rest =>
      match textsOf rest with
      | some choices => .ok (.among positive i choices)
      | none => wrong
    | _ => wrong
  match name with
  | "eq?" => equal true true
  | "not-eq?" => equal false true
  | "any-eq?" => equal true false
  | "any-not-eq?" => equal false false
  | "match?" => matched true true
  | "not-match?" => matched false true
  | "any-match?" => matched true false
  | "any-not-match?" => matched false false
  | "any-of?" => among true
  | "not-any-of?" => among false
  | "set!" | "is?" | "is-not?" => if isProperty operands then .ok .remark else wrong
  | _ => .ok .remark

/-- Reads a predicate after its sign. -/
def readPredicate (s : List Char) : Reader (List Char) := do
  let (name, rest) ← readName s
  match rest with
  | c :: rest =>
    if c = '?' || c = '!' then
      let (operands, rest) ← readOperands (rest.length + 1) [] rest
      let p ← predicateOf (name.push c) operands
      modify fun draft => { draft with predicates := p :: draft.predicates }
      return rest
    else throw .malformed
  | [] => throw .malformed

/-! ## Patterns -/

/-- Reads what a parenthesised node is to be: its kind. -/
def readTarget (v : Vocabulary) (s : List Char) : Reader (Target × List Char) := do
  let (name, rest) ← readName s
  if name = "_" then return (.any true, rest)
  else if name.toList.isPrefixOf "MISSING".toList then
    match skipBlanks false rest with
    | '"' :: rest => do
      let (text, rest) ← readQuoted [] rest
      if v.hasKind text false then return (.never, rest) else throw (.unknownKind text)
    | ')' :: rest => return (.never, ')' :: rest)
    | rest => do
      let (name, rest) ← readName rest
      if v.hasKind name true then return (.never, rest) else throw (.unknownKind name)
  else
    match v.family? name, rest with
    | some kinds, '/' :: rest => do
      let (member, rest) ← readName rest
      if !v.hasKind member true then throw (.unknownKind member)
      else if kinds.contains member then return (.kind member true, rest)
      else throw (.noFamily name)
    | some kinds, rest => return (.oneOf kinds, rest)
    | none, rest =>
      if !v.hasKind name true then throw (.unknownKind name)
      else
        match rest with
        | '/' :: _ => throw (.noFamily name)
        | rest => return (.kind name true, rest)

/-- Reads the captures and repetitions that may follow a pattern. -/
def readSuffixes : (fuel : Nat) → Pattern → List Char → Reader (Pattern × List Char)
  | 0, _, _ => throw .tooDeep
  | fuel + 1, p, s =>
    match skipBlanks false s with
    | '+' :: rest => readSuffixes fuel (.oneOrMore p) rest
    | '*' :: rest => readSuffixes fuel (.anyNumber p) rest
    | '?' :: rest => readSuffixes fuel (.perhaps p) rest
    | '@' :: rest => do
      let (name, rest) ← readName rest
      let i ← numberOf name
      readSuffixes fuel (.captured i p) rest
    | rest => return (p, rest)

/-- The pattern in its place among siblings. -/
def placed (immediate : Bool) (p : Pattern) : Pattern := if immediate then .next p else p

mutual

/-- Reads a pattern, or a predicate, which is no pattern. -/
def readPattern (v : Vocabulary) : (fuel : Nat) → List Char → Reader (Option Pattern × List Char)
  | 0, _ => throw .tooDeep
  | fuel + 1, s =>
    let suffixed (p : Pattern) (rest : List Char) : Reader (Option Pattern × List Char) := do
      let (p, rest) ← readSuffixes (rest.length + 1) p rest
      return (some p, rest)
    match s with
    | '[' :: rest => do
      let (branches, rest) ← readBranches v fuel [] (skipBlanks false rest)
      suffixed (.choice branches) rest
    | '(' :: rest =>
      match skipBlanks false rest with
      | '(' :: _ | '"' :: _ | '[' :: _ => do
        let (members, rest) ← readMembers v fuel false [] (skipBlanks false rest)
        suffixed (.group members) rest
      | '.' :: rest | '#' :: rest => do
        let rest ← readPredicate rest
        return (none, rest)
      | rest => do
        let (target, rest) ← readTarget v rest
        let (p, rest) ← readChildren v fuel target [] [] false (skipBlanks false rest)
        suffixed p rest
    | '"' :: rest => do
      let (text, rest) ← readQuoted [] rest
      if v.hasKind text false then suffixed (.node (.kind text false) [] [] false) rest
      else throw (.unknownKind text)
    | '_' :: rest => suffixed (.node (.any false) [] [] false) rest
    | rest => do
      let (role, rest) ← readName rest
      match skipBlanks false rest with
      | ':' :: rest => do
        let (p, rest) ← readPattern v fuel (skipBlanks false rest)
        if !v.hasRole role then throw (.unknownRole role)
        else
          match p with
          | some p => suffixed (.inRole role p) rest
          | none => throw .malformed
      | _ => throw .malformed

/-- Reads the branches of a choice up to its closing bracket. -/
def readBranches (v : Vocabulary) : (fuel : Nat) → List Pattern → List Char →
    Reader (List Pattern × List Char)
  | 0, _, _ => throw .tooDeep
  | fuel + 1, acc, s =>
    match s, acc with
    | ']' :: rest, _ :: _ => return (acc.reverse, rest)
    | s, acc => do
      let (p, rest) ← readPattern v fuel s
      readBranches v fuel (p.toList ++ acc) (skipBlanks false rest)

/-- Reads the members of a group up to its closing parenthesis. -/
def readMembers (v : Vocabulary) : (fuel : Nat) → Bool → List Pattern → List Char →
    Reader (List Pattern × List Char)
  | 0, _, _, _ => throw .tooDeep
  | fuel + 1, immediate, acc, s =>
    match s with
    | '.' :: rest =>
      if immediate then throw .malformed
      else readMembers v fuel true acc (skipBlanks false rest)
    | ')' :: rest => return (acc.reverse, rest)
    | s => do
      let (p, rest) ← readPattern v fuel s
      readMembers v fuel false ((p.map (placed immediate)).toList ++ acc)
        (skipBlanks false rest)

/-- Reads the children of a node up to its closing parenthesis. -/
def readChildren (v : Vocabulary) : (fuel : Nat) → Target → (absent : List String) →
    List Pattern → (immediate : Bool) → List Char → Reader (Pattern × List Char)
  | 0, _, _, _, _, _ => throw .tooDeep
  | fuel + 1, target, absent, acc, immediate, s =>
    match s with
    | '!' :: rest => do
      let (role, rest) ← readName (skipBlanks false rest)
      if v.hasRole role then
        readChildren v fuel target (absent ++ [role]) acc immediate (skipBlanks false rest)
      else throw (.unknownRole role)
    | '.' :: rest =>
      if immediate then throw .malformed
      else readChildren v fuel target absent acc true (skipBlanks false rest)
    | ')' :: rest =>
      if immediate && acc.isEmpty then throw .malformed
      else if canContain v target acc.reverse then
        return (.node target absent acc.reverse immediate, rest)
      else throw .impossible
    | s => do
      let (p, rest) ← readPattern v fuel s
      readChildren v fuel target absent ((p.map (placed immediate)).toList ++ acc) false
        (skipBlanks false rest)

end

/-- Reads patterns to the end. -/
def readAll (v : Vocabulary) : (fuel : Nat) → List (Option Pattern × List Predicate) →
    List Char → Reader (List (Option Pattern × List Predicate))
  | 0, _, _ => throw .tooDeep
  | fuel + 1, acc, s =>
    match skipBlanks false s with
    | [] => return acc.reverse
    | s => do
      modify fun draft => { draft with predicates := [] }
      let (p, rest) ← readPattern v (2 * s.length + 2) s
      let draft ← get
      readAll v fuel ((p, draft.predicates.reverse) :: acc) rest

/-- The query with the given written form, for a grammar with the given vocabulary. -/
def ofText (v : Vocabulary) (text : String) : Except Fault Query := do
  let s := text.toList
  let (patterns, draft) ← (readAll v (s.length + 1) [] s).run ⟨#[], []⟩
  return assemble draft.captureNames patterns

end SourceFacts.Query
