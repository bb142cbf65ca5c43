import SourceFacts.Json.Printer
import SourceFacts.Json.Reader
import Mathlib.Data.List.Basic

/-!
# Texts and numbers are read back

A text in quotes is read back as itself and leaves what follows it (`readText_quoted`), and so is
a whole number that nothing goes on with (`readNumber_digits`).
-/

namespace SourceFacts.Json

/-! ## Texts -/

theorem hexValue?_hexDigit : ∀ n < 16, hexValue? (hexDigit n) = some n := by decide

theorem hexQuad?_control {n : Nat} (h : n < 32) :
    hexQuad? '0' '0' (hexDigit (n / 16)) (hexDigit (n % 16)) = some n := by
  have hzero : hexValue? '0' = some 0 := rfl
  have hhigh := hexValue?_hexDigit (n / 16) (by omega)
  have hlow := hexValue?_hexDigit (n % 16) (by omega)
  simp only [hexQuad?, hzero, hhigh, hlow, Option.pure_def, Option.bind_eq_bind,
    Option.bind_some, Option.some.injEq]
  omega

theorem readText_quote (cs rest : List Char) :
    readText (some cs) ('"' :: rest) = some (.string (String.ofList cs.reverse), rest) := by
  rw [readText]

theorem readText_escape {c d : Char} (h : escape? c = some d) (hu : c ≠ 'u')
    (cs rest : List Char) :
    readText (some cs) ('\\' :: c :: rest) = readText (some (d :: cs)) rest := by
  rw [readText]
  · simp [h]
  · simp [hu]
  · simp [hu]

/-- A code that is no half of a pair stands for its character, whatever code comes next. -/
theorem readText_code {a b c d : Char} {n : Nat} (h : hexQuad? a b c d = some n)
    (hhigh : isHighHalf n = false) (hlow : isLowHalf n = false) (cs rest : List Char) :
    readText (some cs) ('\\' :: 'u' :: a :: b :: c :: d :: rest) =
      readText (some (Char.ofNat n :: cs)) rest := by
  by_cases hcode : ∃ e f g h more, rest = '\\' :: 'u' :: e :: f :: g :: h :: more
  · obtain ⟨e, f, g, k, more, rfl⟩ := hcode
    rw [readText]
    simp only [h]
    cases hexQuad? e f g k <;> simp [hhigh, hlow]
  · rw [readText]
    · simp [h, hhigh, hlow]
    · intro e f g k more hrest
      exact hcode ⟨e, f, g, k, more, hrest⟩

theorem readText_plain {c : Char} (hquote : c ≠ '"') (hslash : c ≠ '\\') (h : 32 ≤ c.toNat)
    (cs rest : List Char) :
    readText (some cs) (c :: rest) = readText (some (c :: cs)) rest := by
  rw [readText]
  · simp [Nat.not_lt.mpr h]
  all_goals simp [hquote, hslash]

/-- The character that an escape stands for is read. -/
theorem readText_escaped (c : Char) (cs rest : List Char) :
    readText (some cs) (escaped c ++ rest) = readText (some (c :: cs)) rest := by
  unfold escaped
  split
  · exact readText_escape rfl (by decide) cs rest
  · exact readText_escape rfl (by decide) cs rest
  · exact readText_escape rfl (by decide) cs rest
  · exact readText_escape rfl (by decide) cs rest
  · exact readText_escape rfl (by decide) cs rest
  · rename_i hquote hslash _ _ _
    have hself : Char.ofNat c.toNat = c := Char.ofNat_toNat c
    split
    case isTrue h8 =>
      rw [h8] at hself
      exact hself ▸ readText_escape rfl (by decide) cs rest
    case isFalse =>
      split
      case isTrue h12 =>
        rw [h12] at hself
        exact hself ▸ readText_escape rfl (by decide) cs rest
      case isFalse =>
        split
        case isTrue h32 =>
          have hcode := readText_code (hexQuad?_control h32)
            (by simp only [isHighHalf, Bool.and_eq_false_imp, decide_eq_true_eq]; omega)
            (by simp only [isLowHalf, Bool.and_eq_false_imp, decide_eq_true_eq]; omega) cs rest
          rwa [hself] at hcode
        case isFalse h32 =>
          exact readText_plain (by simpa using hquote) (by simpa using hslash) (by omega) cs rest

theorem readText_flatMap_escaped (s cs rest : List Char) :
    readText (some cs) (s.flatMap escaped ++ rest) = readText (some (s.reverse ++ cs)) rest := by
  induction s generalizing cs with
  | nil => rfl
  | cons c s ih =>
    rw [List.flatMap_cons, List.append_assoc, readText_escaped, ih]
    simp

/-- A text in quotes is read back and leaves what follows it. -/
theorem readText_quoted (s : String) (rest : List Char) :
    readText (some []) (s.toList.flatMap escaped ++ '"' :: rest) = some (.string s, rest) := by
  rw [readText_flatMap_escaped, readText_quote]
  simp

/-! ## Numbers -/

/-- No number goes on with the characters. -/
def EndsNumber (rest : List Char) : Prop :=
  ∀ c more, rest = c :: more → c.isDigit = false ∧ c ≠ '.' ∧ c ≠ 'e' ∧ c ≠ 'E'

theorem endsNumber_nil : EndsNumber [] := by
  intro c more h
  cases h

theorem endsNumber_cons {c : Char} {rest : List Char}
    (h : c.isDigit = false ∧ c ≠ '.' ∧ c ≠ 'e' ∧ c ≠ 'E') : EndsNumber (c :: rest) := by
  intro d more heq
  cases heq
  exact h

theorem takeWhile_digits {rest : List Char} (h : EndsNumber rest) :
    rest.takeWhile Char.isDigit = [] ∧ rest.dropWhile Char.isDigit = rest := by
  cases rest with
  | nil => simp
  | cons c more => simp [(h c more rfl).1]

theorem readDigits_toDigits (n : Nat) {rest : List Char} (h : EndsNumber rest) :
    readDigits (Nat.toDigits 10 n ++ rest) = some (Nat.toDigits 10 n, rest) := by
  have hdigits : ∀ c ∈ Nat.toDigits 10 n, c.isDigit := fun c hc =>
    Nat.isDigit_of_mem_toDigits (by decide) (by decide) hc
  obtain ⟨htake, hdrop⟩ := takeWhile_digits h
  unfold readDigits
  rw [List.takeWhile_append_of_pos hdigits, List.dropWhile_append_of_pos hdigits, htake, hdrop,
    List.append_nil]
  split
  · rename_i hnil
    exact absurd hnil Nat.toDigits_ne_nil
  · rfl

theorem natOf_toDigits (n : Nat) : natOf (Nat.toDigits 10 n) = n :=
  Nat.ofDigitChars_ten_toDigits

theorem head?_toDigits {n : Nat} (h : 0 < n) : (Nat.toDigits 10 n).head? ≠ some '0' := by
  induction n using Nat.strongRecOn with
  | ind n ih =>
    by_cases hlt : n < 10
    · have hall : ∀ d < 10, 0 < d → d.digitChar ≠ '0' := by decide
      rw [Nat.toDigits_of_lt_base hlt]
      simpa using hall n hlt h
    · rw [Nat.toDigits_of_base_le (by decide) (by omega), List.head?_append_of_ne_nil _
        Nat.toDigits_ne_nil]
      exact ih (n / 10) (by omega) (by omega)

/-- Digits written for a number have no zero in front. -/
theorem no_leading_zero (n : Nat) :
    ((Nat.toDigits 10 n).head? == some '0' && (Nat.toDigits 10 n).length ≠ 1) = false := by
  rcases Nat.eq_zero_or_pos n with rfl | h
  · rfl
  · simp [head?_toDigits h]

theorem digits_of_nonneg {n : Int} (h : 0 ≤ n) : digits n = Nat.toDigits 10 n.natAbs := by
  obtain ⟨m, rfl⟩ := Int.eq_ofNat_of_zero_le h
  rw [digits, Int.toString_eq_repr, Int.repr_eq_if, if_pos h, Nat.toList_repr]
  rfl

theorem digits_of_neg {n : Int} (h : n < 0) : digits n = '-' :: Nat.toDigits 10 n.natAbs := by
  have habs : (-n).toNat = n.natAbs := by omega
  rw [digits, Int.toString_eq_repr, Int.repr_eq_if, if_neg (Int.not_le.mpr h), String.toList_append,
    Nat.toList_repr, habs]
  rfl

theorem toDigits_head (n : Nat) :
    ∃ c cs, Nat.toDigits 10 n = c :: cs ∧ c.isDigit = true := by
  cases h : Nat.toDigits 10 n with
  | nil => exact absurd h Nat.toDigits_ne_nil
  | cons c cs =>
    have hmem : c ∈ Nat.toDigits 10 n := h ▸ List.mem_cons_self
    exact ⟨c, cs, rfl, Nat.isDigit_of_mem_toDigits (by decide) (by decide) hmem⟩

theorem toDigits_append_ne {n : Nat} {rest more : List Char} :
    Nat.toDigits 10 n ++ rest ≠ '-' :: more := by
  intro heq
  obtain ⟨c, cs, hcs, hdigit⟩ := toDigits_head n
  rw [hcs, List.cons_append, List.cons.injEq] at heq
  rw [heq.1] at hdigit
  exact absurd hdigit (by decide)

/-- A number starts with a digit or a sign. -/
theorem digits_head (n : Int) :
    ∃ c cs, digits n = c :: cs ∧ (c.isDigit = true ∨ c = '-') := by
  by_cases hn : 0 ≤ n
  · obtain ⟨c, cs, hcs, hdigit⟩ := toDigits_head n.natAbs
    exact ⟨c, cs, (digits_of_nonneg hn).trans hcs, Or.inl hdigit⟩
  · exact ⟨'-', _, digits_of_neg (by omega), Or.inr rfl⟩

/-- A whole number is read back where nothing goes on with it. -/
theorem readNumber_digits (n : Int) {rest : List Char} (h : EndsNumber rest) :
    readNumber (digits n ++ rest) = some (.int n, rest) := by
  unfold readNumber
  split
  rename_i sign s hsplit
  have hsign : ((sign = [] ∧ n = n.natAbs) ∨ (sign = ['-'] ∧ n = -n.natAbs ∧ n ≠ 0)) ∧
      s = Nat.toDigits 10 n.natAbs ++ rest := by
    by_cases hn : 0 ≤ n
    · rw [digits_of_nonneg hn] at hsplit
      split at hsplit
      · rename_i more hmore
        exact absurd hmore toDigits_append_ne
      · cases hsplit
        exact ⟨Or.inl ⟨rfl, by omega⟩, rfl⟩
    · rw [digits_of_neg (by omega)] at hsplit
      cases hsplit
      exact ⟨Or.inr ⟨rfl, by omega, by omega⟩, rfl⟩
  obtain ⟨hsign, rfl⟩ := hsign
  have hint : (if sign.isEmpty then (n.natAbs : Int) else -n.natAbs) = n := by
    rcases hsign with ⟨rfl, hn⟩ | ⟨rfl, hn, -⟩ <;> exact hn.symm
  have hzero : (decide (sign = ['-']) && decide ((n.natAbs : Int) = 0)) = false := by
    rcases hsign with ⟨rfl, -⟩ | ⟨-, -, hn⟩
    · rfl
    · simp [hn]
  simp only [readDigits_toDigits _ h, Option.bind_eq_bind, Option.bind_some, no_leading_zero,
    natOf_toDigits, hint, hzero]
  cases rest with
  | nil => simp
  | cons c more =>
    obtain ⟨-, hdot, he, hE⟩ := h c more rfl
    rw [if_neg Bool.false_ne_true]
    split
    · rename_i heq
      cases heq
      exact absurd rfl hdot
    · simp [he, hE]

end SourceFacts.Json
