import SourceFacts.Proofs.Json.Leaves

/-!
# What is written is read back

The compact form of a value reads back as the value (`ofText?_compact`), whatever texts stand in
it, as long as there is nothing in it but truth values, whole numbers, texts, lists and objects
(`Plain`). So no two such values share a compact form (`compact_injective`).

The reader is followed along the value. Its fuel is the length of what is left to read, and what
comes after a value must not go on with a number.
-/

namespace SourceFacts.Json

/-- Values that denote what is written: no fractions, and nothing broken. -/
inductive Plain : Json → Prop
  | null : Plain .null
  | bool (b : Bool) : Plain (.bool b)
  | int (n : Int) : Plain (.int n)
  | string (s : String) : Plain (.string s)
  | list {items : List Json} (h : ∀ j ∈ items, Plain j) : Plain (.list items)
  | object {fields : List (String × Json)} (h : ∀ f ∈ fields, Plain f.2) : Plain (.object fields)

/-- The compact form of a value is read back by as much fuel as it has characters. -/
def ReadsBack (j : Json) : Prop :=
  ∀ fuel rest, j.chars.length ≤ fuel → EndsNumber rest →
    readValue fuel (j.chars ++ rest) = some (j, rest)

/-! ## First characters -/

theorem skipBlanks_cons {c : Char} (h : (c == ' ' || c == '\t' || c == '\n' || c == '\r') = false)
    (rest : List Char) : skipBlanks (c :: rest) = c :: rest := by
  simp [skipBlanks, h]

/-- Neither a blank nor a closing bracket. -/
def StartsValue (c : Char) : Prop :=
  (c == ' ' || c == '\t' || c == '\n' || c == '\r') = false ∧ c ≠ ']'

theorem startsValue_of_digit {c : Char} (h : c.isDigit = true ∨ c = '-') : StartsValue c := by
  rcases h with h | rfl
  · constructor
    · by_contra hblank
      simp only [Bool.not_eq_false, Bool.or_eq_true, beq_iff_eq] at hblank
      rcases hblank with ((rfl | rfl) | rfl) | rfl <;> exact absurd h (by decide)
    · rintro rfl
      exact absurd h (by decide)
  · exact ⟨rfl, by decide⟩

theorem chars_head {j : Json} (h : Plain j) : ∃ c cs, j.chars = c :: cs ∧ StartsValue c := by
  cases h with
  | null => exact ⟨'n', _, by rw [chars], rfl, by decide⟩
  | bool b =>
    cases b with
    | true => exact ⟨'t', _, by rw [chars], rfl, by decide⟩
    | false => exact ⟨'f', _, by rw [chars], rfl, by decide⟩
  | int n =>
    obtain ⟨c, cs, hcs, hc⟩ := digits_head n
    exact ⟨c, cs, by rw [chars, hcs], startsValue_of_digit hc⟩
  | string s => exact ⟨'"', _, by rw [chars, quoted], rfl, by decide⟩
  | list _ => exact ⟨'[', _, by rw [chars], rfl, by decide⟩
  | object _ => exact ⟨'\x7b', _, by rw [chars], rfl, by decide⟩

/-! ## Leaves -/

theorem readsBack_null : ReadsBack .null := by
  intro fuel rest hfuel _
  cases fuel with
  | zero => simp [chars] at hfuel
  | succ fuel => simp [chars, readValue, skipBlanks_cons, readWord]

theorem readsBack_bool (b : Bool) : ReadsBack (.bool b) := by
  intro fuel rest hfuel _
  cases fuel with
  | zero => cases b <;> simp [chars] at hfuel
  | succ fuel => cases b <;> simp [chars, readValue, skipBlanks_cons, readWord]

theorem readsBack_string (s : String) : ReadsBack (.string s) := by
  intro fuel rest hfuel _
  cases fuel with
  | zero => simp [chars, quoted] at hfuel
  | succ fuel => simp [chars, quoted, readValue, skipBlanks_cons, readText_quoted]

theorem readsBack_int (n : Int) : ReadsBack (.int n) := by
  intro fuel rest hfuel hrest
  obtain ⟨c, cs, hcs, hc⟩ := digits_head n
  cases fuel with
  | zero => simp [chars, hcs] at hfuel
  | succ fuel =>
    have hne : ∀ d : Char, d.isDigit = false → d ≠ '-' → c ≠ d := by
      rintro d hd hminus rfl
      simp_all
    have hnumber := readNumber_digits n hrest
    rw [hcs, List.cons_append] at hnumber
    rw [chars, hcs, List.cons_append, readValue, skipBlanks_cons (startsValue_of_digit hc).1]
    simp [hne '"' (by decide) (by decide), hne '[' (by decide) (by decide),
      hne '\x7b' (by decide) (by decide), hne 'n' (by decide) (by decide),
      hne 't' (by decide) (by decide), hne 'f' (by decide) (by decide), hnumber]

/-! ## Lists and objects -/

theorem endsNumber_mark (c : Char) (hc : c ∈ [',', ']', '\x7d']) (rest : List Char) :
    EndsNumber (c :: rest) := by
  simp only [List.mem_cons, List.not_mem_nil, or_false] at hc
  rcases hc with rfl | rfl | rfl <;>
    exact endsNumber_cons ⟨rfl, by decide, by decide, by decide⟩

theorem readItems_itemChars {items : List Json} (hne : items ≠ [])
    (hall : ∀ j ∈ items, ReadsBack j) (acc : List Json) (rest : List Char) (fuel : Nat)
    (hfuel : (itemChars items).length < fuel) :
    readItems fuel acc (itemChars items ++ ']' :: rest) =
      some (.list (acc.reverse ++ items), rest) := by
  induction items generalizing acc fuel with
  | nil => exact absurd rfl hne
  | cons a more ih =>
    obtain ⟨fuel, rfl⟩ : ∃ n, fuel = n + 1 := ⟨fuel - 1, by omega⟩
    have ha : ReadsBack a := hall a List.mem_cons_self
    cases more with
    | nil =>
      rw [itemChars] at hfuel ⊢
      rw [readItems, ha fuel _ (by omega) (endsNumber_mark ']' (by decide) rest)]
      simp [skipBlanks_cons]
    | cons b more =>
      rw [itemChars, List.length_append, List.length_cons] at hfuel
      have hrest := ih (List.cons_ne_nil _ _) (fun j hj => hall j (List.mem_cons_of_mem _ hj))
        (a :: acc) fuel (by omega)
      rw [itemChars, List.append_assoc, List.cons_append, readItems,
        ha fuel _ (by omega) (endsNumber_mark ',' (by decide) _)]
      simp [skipBlanks_cons, hrest]

theorem readFields_fieldChars {fields : List (String × Json)} (hne : fields ≠ [])
    (hall : ∀ f ∈ fields, ReadsBack f.2) (acc : List (String × Json)) (rest : List Char)
    (fuel : Nat) (hfuel : (fieldChars fields).length < fuel) :
    readFields fuel acc (fieldChars fields ++ '\x7d' :: rest) =
      some (.object (acc.reverse ++ fields), rest) := by
  induction fields generalizing acc fuel with
  | nil => exact absurd rfl hne
  | cons f more ih =>
    obtain ⟨fuel, rfl⟩ : ∃ n, fuel = n + 1 := ⟨fuel - 1, by omega⟩
    obtain ⟨k, v⟩ := f
    have hv : ReadsBack v := hall _ List.mem_cons_self
    cases more with
    | nil =>
      rw [fieldChars, List.length_append, List.length_cons] at hfuel
      have hread := hv fuel ('\x7d' :: rest) (by omega) (endsNumber_mark '\x7d' (by decide) rest)
      simp [fieldChars, quoted, readFields, skipBlanks_cons, readText_quoted, hread]
    | cons g more =>
      rw [fieldChars, List.length_append, List.length_cons, List.length_append,
        List.length_cons] at hfuel
      have hread := hv fuel (',' :: (fieldChars (g :: more) ++ '\x7d' :: rest)) (by omega)
        (endsNumber_mark ',' (by decide) _)
      have hrest := ih (List.cons_ne_nil _ _) (fun f hf => hall f (List.mem_cons_of_mem _ hf))
        ((k, v) :: acc) fuel (by omega)
      simp [fieldChars, quoted, readFields, skipBlanks_cons, readText_quoted, hread, hrest]

theorem readsBack_list {items : List Json} (hplain : ∀ j ∈ items, Plain j)
    (hall : ∀ j ∈ items, ReadsBack j) : ReadsBack (.list items) := by
  intro fuel rest hfuel _
  obtain ⟨fuel, rfl⟩ : ∃ n, fuel = n + 1 := ⟨fuel - 1, by simp [chars] at hfuel; omega⟩
  cases items with
  | nil => simp [chars, itemChars, readValue, skipBlanks_cons]
  | cons a more =>
    rw [chars, List.length_cons, List.length_append] at hfuel
    have hitems := readItems_itemChars (List.cons_ne_nil a more) hall [] rest fuel
      (by simp only [List.length_cons] at hfuel; omega)
    obtain ⟨c, cs, hcs, hblank, hclose⟩ : ∃ c cs, itemChars (a :: more) = c :: cs ∧
        StartsValue c := by
      obtain ⟨c, cs, hcs, hc⟩ := chars_head (hplain a List.mem_cons_self)
      cases more with
      | nil => exact ⟨c, cs, by rw [itemChars, hcs], hc⟩
      | cons b more => exact ⟨c, _, by rw [itemChars, hcs]; rfl, hc⟩
    rw [hcs] at hitems
    simp only [List.cons_append] at hitems
    simp [chars, readValue, skipBlanks_cons, hcs, hblank, hclose, hitems]

theorem readsBack_object {fields : List (String × Json)} (hall : ∀ f ∈ fields, ReadsBack f.2) :
    ReadsBack (.object fields) := by
  intro fuel rest hfuel _
  obtain ⟨fuel, rfl⟩ : ∃ n, fuel = n + 1 := ⟨fuel - 1, by simp [chars] at hfuel; omega⟩
  cases fields with
  | nil => simp [chars, fieldChars, readValue, skipBlanks_cons]
  | cons f more =>
    rw [chars, List.length_cons, List.length_append] at hfuel
    have hfields := readFields_fieldChars (List.cons_ne_nil f more) hall [] rest fuel
      (by simp only [List.length_cons] at hfuel; omega)
    obtain ⟨cs, hcs⟩ : ∃ cs, fieldChars (f :: more) = '"' :: cs := by
      cases more with
      | nil => exact ⟨_, by rw [fieldChars, quoted]; rfl⟩
      | cons g more => exact ⟨_, by rw [fieldChars, quoted]; rfl⟩
    rw [hcs] at hfields
    simp only [List.cons_append] at hfields
    simp [chars, readValue, skipBlanks_cons, hcs, hfields]

/-! ## Values -/

theorem readsBack {j : Json} (h : Plain j) : ReadsBack j := by
  induction h with
  | null => exact readsBack_null
  | bool b => exact readsBack_bool b
  | int n => exact readsBack_int n
  | string s => exact readsBack_string s
  | list hplain ih => exact readsBack_list hplain ih
  | object _ ih => exact readsBack_object ih

/-- The compact form of a value denotes the value. -/
theorem ofText?_compact {j : Json} (h : Plain j) : ofText? j.compact = some j := by
  have hread := readsBack h (2 * j.chars.length + 2) [] (by omega) endsNumber_nil
  rw [List.append_nil] at hread
  simp [ofText?, compact, hread, skipBlanks]

/-- Different values are written differently. -/
theorem compact_injective {a b : Json} (ha : Plain a) (hb : Plain b)
    (h : a.compact = b.compact) : a = b := by
  have hread := ofText?_compact ha
  rw [h, ofText?_compact hb] at hread
  exact (Option.some.inj hread).symm

end SourceFacts.Json
