import Mathlib.Data.List.Infix
import SourceFacts.FeatureQuery
import SourceFacts.Proofs.Query.Quoted

/-!
# Regular expressions in queries

A regular expression that is written into a query is read back as it was, whatever is in it and
whatever follows it (`literal?_escape`), and its predicate is read as one predicate with just
that operand (`readPattern_of_predicate`). So no regular expression gets out of its quotes
(`escape_readsBack`).

That different regular expressions make different predicates needs no reader: in what is written,
a quote stands after a backslash only (`slash_before_quote`), so the opening quote can be told.
-/

namespace SourceFacts.FeatureQuery

open Query

/-! ## Quoted texts -/

theorem toList_escape (s : String) : (escape s).toList = s.toList.flatMap escapedChar := by
  rw [escape, String.toList_ofList]

theorem literal?_escapedChar (c : Char) (rest : List Char) :
    literal? (escapedChar c ++ rest) = (literal? rest).map fun (s, k) => (c :: s, k) := by
  unfold escapedChar
  split
  · rfl
  · rfl
  · rfl
  · rfl
  · rfl
  · rename_i hslash hquote _ _ _
    exact literal?_plain hslash hquote rest

/-- A regular expression is read back, and what follows the quote is left. -/
theorem literal?_escape (s : String) (k : List Char) :
    literal? ((escape s).toList ++ '"' :: k) = some (s.toList, k) := by
  rw [toList_escape]
  induction s.toList with
  | nil => rfl
  | cons c cs ih =>
    rw [List.flatMap_cons, List.append_assoc, literal?_escapedChar, ih]
    rfl

theorem notMem_escape (s : String) :
    '\n' ∉ (escape s).toList ∧ '\r' ∉ (escape s).toList ∧ '\t' ∉ (escape s).toList := by
  have hchar : ∀ c : Char, ∀ d ∈ escapedChar c, d ≠ '\n' ∧ d ≠ '\r' ∧ d ≠ '\t' := by
    intro c
    unfold escapedChar
    split
    · simp
    · simp
    · simp
    · simp
    · simp
    · rename_i hline hreturn htab
      intro d hd
      obtain rfl := List.mem_singleton.mp hd
      exact ⟨hline, hreturn, htab⟩
  rw [toList_escape]
  simp only [List.mem_flatMap]
  refine ⟨?_, ?_, ?_⟩ <;> rintro ⟨c, -, hd⟩
  · exact (hchar c _ hd).1 rfl
  · exact (hchar c _ hd).2.1 rfl
  · exact (hchar c _ hd).2.2 rfl

theorem escape_injective : Function.Injective escape := by
  intro s s' h
  have hread := literal?_escape s []
  rw [h, literal?_escape] at hread
  exact (String.toList_inj.mp (Prod.mk.inj (Option.some.inj hread)).1).symm

theorem readQuoted_escape (s : String) (k : List Char) :
    readQuoted [] ((escape s).toList ++ '"' :: k) = pure (s, k) := by
  have hline : '\n' ∉ (escape s).toList ++ ['"'] := by
    simp [(notMem_escape s).1]
  have hread := readQuoted_of_literal? (literal?_escape s []) hline [] k
  simpa using hread

/-! ## Predicates -/

theorem isName_capture (slot : Slot) : IsName slot.capture := by
  cases slot <;> decide

theorem toList_predicate (capture s : String) : (predicate capture s).toList =
    '(' :: '#' :: ("match".toList ++ '?' :: ' ' :: '@' :: (capture.toList ++
      ' ' :: '"' :: ((escape s).toList ++ ['"', ')']))) := by
  simp [predicate]

theorem readOperands_of_predicate {capture : String} (hname : IsName capture) (s : String)
    (k : List Char) (fuel : Nat) (d : Draft) :
    readOperands (fuel + 3) [] (' ' :: '@' :: (capture.toList ++
        ' ' :: '"' :: ((escape s).toList ++ '"' :: ')' :: k))) d =
      match d.captureNames.findIdx? (· == capture) with
      | some i => .ok (([.capture i, .text s], skipBlanks false k), d)
      | none => .error (.unknownCapture capture) := by
  have htext : ∀ acc, readOperands (fuel + 2) acc
      (' ' :: '"' :: ((escape s).toList ++ '"' :: ')' :: k)) =
        pure ((Operand.text s :: acc).reverse, skipBlanks false k) := by
    intro acc
    rw [readOperands_quote, readQuoted_escape]
    rfl
  rw [readOperands_capture hname]
  simp only [htext]
  rfl

/-- What is read is the one predicate of the capture and the regular expression that were written.
It ends where it was written to end. -/
theorem readPattern_of_predicate {capture : String} (hname : IsName capture) (s : String)
    (v : Syntax.Vocabulary) (fuel : Nat) (k : List Char) (d : Draft) :
    readPattern v (fuel + 1) ((predicate capture s).toList ++ k) d =
      match d.captureNames.findIdx? (· == capture) with
      | none => .error (.unknownCapture capture)
      | some i => (predicateOf "match?" [.capture i, .text s]).map fun p =>
        ((none, skipBlanks false k), { d with predicates := p :: d.predicates }) := by
  have hmatch : IsName "match" := by decide
  have hpush : "match".push '?' = "match?" := rfl
  rw [toList_predicate]
  simp only [List.cons_append, List.append_assoc]
  rw [readPattern_predicate, readPredicate_question hmatch, hpush]
  obtain ⟨n, hn⟩ : ∃ n, (' ' :: '@' :: (capture.toList ++
      ' ' :: '"' :: ((escape s).toList ++ '"' :: ')' :: k))).length + 1 = n + 3 :=
    ⟨_, by simp only [List.length_cons]; rfl⟩
  have hoperands := readOperands_of_predicate hname s k n d
  rw [← hn] at hoperands
  simp only [bind, StateT.bind, hoperands, List.nil_append]
  cases d.captureNames.findIdx? (· == capture) with
  | none => rfl
  | some i =>
    simp only [Except.bind]
    cases predicateOf "match?" [.capture i, .text s] <;> rfl

/-! ## Different regular expressions -/

/-- A character is written as itself, and is no quote then, or after a backslash. -/
theorem escapedChar_cases (c : Char) :
    (escapedChar c = [c] ∧ c ≠ '"') ∨ ∃ d, escapedChar c = ['\\', d] := by
  unfold escapedChar
  split
  · exact Or.inr ⟨_, rfl⟩
  · exact Or.inr ⟨_, rfl⟩
  · exact Or.inr ⟨_, rfl⟩
  · exact Or.inr ⟨_, rfl⟩
  · exact Or.inr ⟨_, rfl⟩
  · rename_i hquote _ _ _
    exact Or.inl ⟨rfl, hquote⟩

theorem flatMap_escapedChar_ne_quote (cs post : List Char) :
    cs.flatMap escapedChar ≠ '"' :: post := by
  cases cs with
  | nil => simp
  | cons c cs =>
    rcases escapedChar_cases c with ⟨hc, hquote⟩ | ⟨d, hc⟩
    · simp [hc, hquote]
    · simp [hc]

/-- What stands before a quote in an escaped text is a backslash. -/
theorem slash_before_quote {cs pre post : List Char} {x : Char}
    (h : cs.flatMap escapedChar = pre ++ x :: '"' :: post) : x = '\\' := by
  induction cs generalizing pre with
  | nil => simp at h
  | cons c cs ih =>
    rw [List.flatMap_cons] at h
    rcases escapedChar_cases c with ⟨hc, -⟩ | ⟨d, hc⟩
    · rw [hc, List.singleton_append] at h
      cases pre with
      | nil => exact absurd (List.cons.inj h).2 (flatMap_escapedChar_ne_quote cs post)
      | cons a pre => exact ih (List.cons.inj h).2
    · rw [hc, List.cons_append, List.singleton_append] at h
      rcases pre with _ | ⟨a, _ | ⟨b, pre⟩⟩
      · exact (List.cons.inj h).1.symm
      · have htail := (List.cons.inj (List.cons.inj h).2).2
        exact absurd htail (flatMap_escapedChar_ne_quote cs post)
      · exact ih (List.cons.inj (List.cons.inj h).2).2

/-- An opening quote that stands after a blank is nowhere in what it opens. -/
theorem eq_of_append_quoted {front other : List Char} {s s' : String}
    (h : front ++ ' ' :: '"' :: (escape s).toList = other ++ ' ' :: '"' :: (escape s').toList) :
    front = other ∧ s = s' := by
  have hnone : ∀ (s : String) (pre post : List Char),
      (escape s).toList ≠ pre ++ ' ' :: '"' :: post := by
    intro s pre post heq
    rw [toList_escape] at heq
    exact absurd (slash_before_quote heq) (by decide)
  have hprefix : ∀ (more : List Char) (s s' : String),
      ' ' :: '"' :: (escape s).toList = more ++ ' ' :: '"' :: (escape s').toList → more = [] := by
    intro more s s' heq
    rcases more with _ | ⟨a, _ | ⟨b, more⟩⟩
    · rfl
    · exact absurd (List.cons.inj (List.cons.inj heq).2).1 (by decide)
    · exact absurd (List.cons.inj (List.cons.inj heq).2).2 (hnone s more _)
  have hfront : front = other := by
    rcases List.append_eq_append_iff.mp h with ⟨more, hother, heq⟩ | ⟨more, hfront, heq⟩
    · rw [hother, hprefix more s s' heq, List.append_nil]
    · rw [hfront, hprefix more s' s heq, List.append_nil]
  subst hfront
  have htail := List.append_cancel_left h
  exact ⟨rfl, escape_injective (String.toList_inj.mp (List.cons.inj (List.cons.inj htail).2).2)⟩

theorem predicate_inj {capture other s s' : String}
    (h : predicate capture s = predicate other s') : capture = other ∧ s = s' := by
  have hlists := congrArg String.toList h
  simp only [toList_predicate, List.cons.injEq, true_and, List.append_cancel_left_eq] at hlists
  have hquoted : (capture.toList ++ ' ' :: '"' :: (escape s).toList) ++ ['"', ')'] =
      (other.toList ++ ' ' :: '"' :: (escape s').toList) ++ ['"', ')'] := by
    simpa using hlists
  obtain ⟨hcapture, hs⟩ := eq_of_append_quoted (List.append_cancel_right hquoted)
  exact ⟨String.toList_inj.mp hcapture, hs⟩

/-- **Regular expressions do not get out of their quotes.** Whatever a regular expression is and
whatever follows it, it is read back up to its closing quote and no further. There is no raw line
break or tab in what is written. Its predicate is read as one predicate, of the capture and the
regular expression, whatever the capture is called, and predicates are equal only if their
captures and their regular expressions are. -/
theorem escape_readsBack (s : String) :
    (∀ k, literal? ((escape s).toList ++ '"' :: k) = some (s.toList, k)) ∧
    ('\n' ∉ (escape s).toList ∧ '\r' ∉ (escape s).toList ∧ '\t' ∉ (escape s).toList) ∧
    (∀ capture, IsName capture → ∀ v fuel k d,
      readPattern v (fuel + 1) ((predicate capture s).toList ++ k) d =
        match d.captureNames.findIdx? (· == capture) with
        | none => .error (.unknownCapture capture)
        | some i => (predicateOf "match?" [.capture i, .text s]).map fun p =>
          ((none, skipBlanks false k), { d with predicates := p :: d.predicates })) ∧
    (∀ slot : Slot, IsName slot.capture) ∧
    ∀ capture other s', predicate capture s = predicate other s' → capture = other ∧ s = s' :=
  ⟨literal?_escape s, notMem_escape s, fun _ hname => readPattern_of_predicate hname s,
    isName_capture, fun _ _ _ => predicate_inj⟩

theorem escape_readsBack_quote :
    let s := "^\"\\d\\\\\n$"
    let d : Draft := ⟨#["target", "callee"], []⟩
    IsName "callee" ∧ ∃ r, Regex.ofText s = .ok r ∧
      readPattern Language.python.vocabulary 1
          ((predicate "callee" s).toList ++ ") @target".toList) d =
        .ok ((none, ") @target".toList), { d with predicates := [.matched true true 1 r] }) := by
  intro s d
  have hname : IsName "callee" := by decide
  obtain ⟨r, hr⟩ : ∃ r, Regex.ofText s = .ok r := by
    have hok : (Regex.ofText s).toOption.isSome := by decide +kernel
    cases hread : Regex.ofText s with
    | ok r => exact ⟨r, rfl⟩
    | error e => simp [hread, Except.toOption] at hok
  have hcapture : d.captureNames.findIdx? (· == "callee") = some 1 := by decide +kernel
  have hstated : predicateOf "match?" [.capture 1, .text s] = .ok (.matched true true 1 r) := by
    simp only [predicateOf, hr]
  refine ⟨hname, r, hr, ?_⟩
  rw [(escape_readsBack s).2.2.1 "callee" hname, hcapture]
  simp only [hstated]
  rfl

end SourceFacts.FeatureQuery
