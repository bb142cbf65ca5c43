import SourceFacts.Query.Reader

/-!
# Quoted texts and names in queries

What a quoted text means can be said without the rest of a query (`literal?`), and the reader of
queries agrees as long as there is no line break in the quotes (`readQuoted_of_literal?`). A name
is read up to the first character that cannot stand in one (`readName_append`).
-/

namespace SourceFacts.Query

/-! ## Quoted texts -/

/-- What a character means after a backslash. -/
def meaningOf (c : Char) : Char :=
  match c with
  | 'n' => '\n'
  | 'r' => '\r'
  | 't' => '\t'
  | '0' => Char.ofNat 0
  | c => c

/-- Reads a quoted text after its opening quote: the text up to the first quote that is not
escaped, and what follows that quote. -/
def literal? : List Char → Option (List Char × List Char)
  | [] => none
  | ['\\'] => none
  | '\\' :: c :: rest => (literal? rest).map fun (s, k) => (meaningOf c :: s, k)
  | '"' :: rest => some ([], rest)
  | c :: rest => (literal? rest).map fun (s, k) => (c :: s, k)

theorem literal?_plain {c : Char} (hslash : c ≠ '\\') (hquote : c ≠ '"') (rest : List Char) :
    literal? (c :: rest) = (literal? rest).map fun (s, k) => (c :: s, k) := by
  rw [literal?]
  all_goals simp [hslash, hquote]

theorem readQuoted_backslash (c : Char) (acc rest : List Char) :
    readQuoted acc ('\\' :: c :: rest) = readQuoted (meaningOf c :: acc) rest := rfl

theorem readQuoted_plain {c : Char} (hslash : c ≠ '\\') (hquote : c ≠ '"') (hline : c ≠ '\n')
    (acc rest : List Char) : readQuoted acc (c :: rest) = readQuoted (c :: acc) rest := by
  rw [readQuoted]
  all_goals simp [hslash, hquote, hline]

/-- A quoted text without line breaks is read out of a query as it is by itself. -/
theorem readQuoted_of_literal? {front s : List Char} (h : literal? front = some (s, []))
    (hline : '\n' ∉ front) (acc k : List Char) :
    readQuoted acc (front ++ k) = pure (String.ofList (acc.reverse ++ s), k) := by
  fun_induction literal? front generalizing acc s with
  | case1 => cases h
  | case2 => cases h
  | case3 c rest ih =>
    obtain ⟨⟨s', k'⟩, hrest, heq⟩ := Option.map_eq_some_iff.mp h
    obtain ⟨rfl, rfl⟩ := Prod.mk.inj heq
    have hnext := ih hrest (fun hmem => hline (by simp [hmem])) (meaningOf c :: acc)
    rw [List.reverse_cons, List.append_assoc, List.singleton_append] at hnext
    rw [List.cons_append, List.cons_append, readQuoted_backslash, hnext]
  | case4 rest =>
    obtain ⟨rfl, rfl⟩ := Prod.mk.inj (Option.some.inj h)
    rw [List.append_nil]
    rfl
  | case5 c rest hlone hescape hquote ih =>
    obtain ⟨⟨s', k'⟩, hrest, heq⟩ := Option.map_eq_some_iff.mp h
    obtain ⟨rfl, rfl⟩ := Prod.mk.inj heq
    have hslash : c ≠ '\\' := by
      rintro rfl
      cases rest with
      | nil => exact hlone rfl rfl
      | cons d rest => exact hescape d rest rfl rfl
    have hbreak : c ≠ '\n' := fun heq => hline (by simp [heq])
    have hnext := ih hrest (fun hmem => hline (by simp [hmem])) (c :: acc)
    rw [List.reverse_cons, List.append_assoc, List.singleton_append] at hnext
    rw [List.cons_append, readQuoted_plain hslash hquote hbreak, hnext]

/-! ## Names -/

/-- A text that is read as one name. -/
def IsName (name : String) : Prop :=
  (∃ c ∈ name.toList.head?, startsName c) ∧ ∀ c ∈ name.toList, isNameChar c

theorem isName_iff {name : String} :
    (name.toList.head?.any startsName && name.toList.all isNameChar) = true ↔ IsName name := by
  rw [Bool.and_eq_true, Option.any_eq_true, List.all_eq_true, IsName]
  simp only [Option.mem_def]

instance (name : String) : Decidable (IsName name) := decidable_of_iff _ isName_iff

theorem readName_append {name : String} (h : IsName name) {c : Char} (hc : isNameChar c = false)
    (rest : List Char) : readName (name.toList ++ c :: rest) = pure (name, c :: rest) := by
  obtain ⟨⟨a, ha, hstarts⟩, hall⟩ := h
  have htake : (name.toList ++ c :: rest).takeWhile isNameChar = name.toList := by
    rw [List.takeWhile_append_of_pos hall, List.takeWhile_cons_of_neg (by simp [hc]),
      List.append_nil]
  have hdrop : (name.toList ++ c :: rest).dropWhile isNameChar = c :: rest := by
    rw [List.dropWhile_append_of_pos hall, List.dropWhile_cons_of_neg (by simp [hc])]
  rw [Option.mem_def, List.head?_eq_some_iff] at ha
  obtain ⟨l, hl⟩ := ha
  rw [hl, List.cons_append] at htake hdrop ⊢
  rw [readName, if_pos hstarts, htake, hdrop, ← hl, String.ofList_toList]

/-! ## Operands -/

theorem readOperands_quote (fuel : Nat) (acc : List Operand) (rest : List Char) :
    readOperands (fuel + 1) acc (' ' :: '"' :: rest) = (do
      let (text, rest) ← readQuoted [] rest
      readOperands fuel (.text text :: acc) rest) := rfl

theorem readOperands_at (fuel : Nat) (acc : List Operand) (rest : List Char) :
    readOperands (fuel + 1) acc (' ' :: '@' :: rest) = (do
      let (name, rest) ← readName rest
      match (← get).captureNames.findIdx? (· == name) with
      | some i => readOperands fuel (.capture i :: acc) rest
      | none => throw (.unknownCapture name)) := rfl

/-- A capture is an operand if the pattern has it. -/
theorem readOperands_capture {capture : String} (hname : IsName capture) (fuel : Nat)
    (acc : List Operand) (rest : List Char) (d : Draft) :
    readOperands (fuel + 1) acc (' ' :: '@' :: (capture.toList ++ ' ' :: rest)) d =
      match d.captureNames.findIdx? (· == capture) with
      | some i => readOperands fuel (.capture i :: acc) (' ' :: rest) d
      | none => .error (.unknownCapture capture) := by
  rw [readOperands_at, readName_append hname (by decide), pure_bind]
  simp only [bind, StateT.bind, get, getThe, MonadStateOf.get, StateT.get, pure, Except.pure,
    Except.bind]
  cases d.captureNames.findIdx? (· == capture) <;> rfl

/-! ## Predicates -/

theorem readPattern_predicate (v : Syntax.Vocabulary) (fuel : Nat) (rest : List Char) :
    readPattern v (fuel + 1) ('(' :: '#' :: rest) = (do
      let rest ← readPredicate rest
      return (none, rest)) := rfl

theorem readPredicate_question {name : String} (hname : IsName name) (rest : List Char) :
    readPredicate (name.toList ++ '?' :: rest) = (do
      let (operands, rest) ← readOperands (rest.length + 1) [] rest
      let p ← predicateOf (name.push '?') operands
      modify fun draft => { draft with predicates := p :: draft.predicates }
      return rest) := by
  rw [readPredicate, readName_append hname (by decide), pure_bind]
  rfl

end SourceFacts.Query
