import SourceFacts.FeatureQuery
import SourceFacts.Proofs.Text.FirstPlace

/-!
# How templates are read

A template is read once, from left to right: text as it stands up to the first pair of opening
braces, a name up to the first pair of closing braces after them, and so on (`IsReading`). Every
text can be read in one way only (`exists_isReading`, `IsReading.unique`).

Filling the placeholders of a template goes by that reading (`fill_of_isReading`). So whether a
template can be filled, and what is reported if it cannot, is a matter of the template alone, and
regular expressions are put into the text as they are, braces and all (`render_onePass`).
-/

namespace SourceFacts

theorem Slot.ofPlaceholder?_eq_some_iff {name : String} {s : Slot} :
    Slot.ofPlaceholder? name = some s ↔ s.placeholder = name := by
  constructor
  · intro h
    simpa using List.find?_some h
  · rintro rfl
    cases s <;> decide

theorem Slot.ofPlaceholder?_eq_none_iff {name : String} :
    Slot.ofPlaceholder? name = none ↔ ∀ s : Slot, s.placeholder ≠ name := by
  rw [Option.eq_none_iff_forall_ne_some]
  exact forall_congr' fun s => not_congr Slot.ofPlaceholder?_eq_some_iff

namespace FeatureQuery

open Text (FirstAt)

/-! ## Reading -/

/-- What a placeholder starts with. -/
def opening : List Char := ['\x7b', '\x7b']

/-- What a placeholder ends with. -/
def closing : List Char := ['\x7d', '\x7d']

/-- A part of a template. -/
inductive Part where
  /-- Text that stands for itself. -/
  | literal (s : List Char)
  /-- What stands between the braces of a placeholder. -/
  | placeholder (inside : List Char)
  /-- What follows opening braces without closing ones. -/
  | unterminated (rest : List Char)
deriving Repr, DecidableEq

/-- How a text is read, from left to right. -/
inductive IsReading : List Char → List Part → Prop
  | literal {s : List Char} (h : ¬ opening <:+: s) : IsReading s [.literal s]
  | unterminated {s before rest : List Char} (hopen : FirstAt opening s before rest)
      (hclose : ¬ closing <:+: rest) : IsReading s [.literal before, .unterminated rest]
  | placeholder {s before more inside rest : List Char} {parts : List Part}
      (hopen : FirstAt opening s before more) (hclose : FirstAt closing more inside rest)
      (hrest : IsReading rest parts) :
      IsReading s (.literal before :: .placeholder inside :: parts)

theorem IsReading.unique {s : List Char} {parts others : List Part} (h : IsReading s parts)
    (h' : IsReading s others) : parts = others := by
  induction h generalizing others with
  | literal hnone =>
    cases h' with
    | literal _ => rfl
    | unterminated hopen' _ => exact absurd hopen'.stands hnone
    | placeholder hopen' _ _ => exact absurd hopen'.stands hnone
  | unterminated hopen hclose =>
    cases h' with
    | literal hnone => exact absurd hopen.stands hnone
    | unterminated hopen' _ =>
      obtain ⟨rfl, rfl⟩ := hopen.unique hopen'
      rfl
    | placeholder hopen' hclose' _ =>
      obtain ⟨rfl, rfl⟩ := hopen.unique hopen'
      exact absurd hclose'.stands hclose
  | placeholder hopen hclose hrest ih =>
    cases h' with
    | literal hnone => exact absurd hopen.stands hnone
    | unterminated hopen' hclose' =>
      obtain ⟨rfl, rfl⟩ := hopen.unique hopen'
      exact absurd hclose.stands hclose'
    | placeholder hopen' hclose' hrest' =>
      obtain ⟨rfl, rfl⟩ := hopen.unique hopen'
      obtain ⟨rfl, rfl⟩ := hclose.unique hclose'
      rw [ih hrest']

theorem exists_isReading (s : List Char) : ∃ parts, IsReading s parts := by
  -- What is left after a placeholder is shorter than the text.
  generalize hn : s.length = n
  induction n using Nat.strongRecOn generalizing s with
  | ind n ih =>
    rcases Text.firstAt_or_absent opening s with ⟨before, more, hopen⟩ | hnone
    · rcases Text.firstAt_or_absent closing more with ⟨inside, rest, hclose⟩ | hnone
      · have hshorter : rest.length < n := by
          rw [← hn, hopen.split, hclose.split]
          simp [opening, closing]
          omega
        obtain ⟨parts, hparts⟩ := ih rest.length hshorter rest rfl
        exact ⟨_, .placeholder hopen hclose hparts⟩
      · exact ⟨_, .unterminated hopen hnone⟩
    · exact ⟨_, .literal hnone⟩

/-! ## Filling -/

/-- The name that a placeholder gives, without the blanks around it. -/
def nameOf (inside : List Char) : String := Text.trimmed (String.ofList inside)

namespace Part

/-- What is reported about a part that cannot be filled. -/
def fault? : Part → Option String
  | .literal _ => none
  | .placeholder inside =>
    match Slot.ofPlaceholder? (nameOf inside) with
    | some _ => none
    | none => some (nameOf inside)
  | .unterminated rest => some (nameOf rest)

/-- What is put in place of a part. -/
def filled (constructs : Option ConstructQuery) : Part → List Char
  | .literal s => s
  | .placeholder inside =>
    match Slot.ofPlaceholder? (nameOf inside) with
    | some slot =>
      match constructs.bind slot.regex? with
      | some regex => (predicate slot.capture regex).toList
      | none => []
    | none => []
  | .unterminated _ => []

theorem fault?_ne_none_iff {part : Part} : part.fault? ≠ none ↔
    (∃ rest, part = .unterminated rest) ∨
      ∃ inside, part = .placeholder inside ∧ ∀ s : Slot, s.placeholder ≠ nameOf inside := by
  cases part with
  | literal s => simp [fault?]
  | placeholder inside =>
    simp only [fault?, ← Slot.ofPlaceholder?_eq_none_iff]
    cases hslot : Slot.ofPlaceholder? (nameOf inside) <;> simp [hslot]
  | unterminated rest => simp [fault?]

end Part

/-- What comes of a template that is read as the given parts: its parts filled, or what is
reported about the first that cannot be filled. -/
def outcome (constructs : Option ConstructQuery) (parts : List Part) :
    Except String (List Char) :=
  match parts.findSome? Part.fault? with
  | some name => .error name
  | none => .ok (parts.flatMap (Part.filled constructs))

theorem outcome_literal (constructs : Option ConstructQuery) (s : List Char)
    (parts : List Part) :
    outcome constructs (.literal s :: parts) = (outcome constructs parts).map (s ++ ·) := by
  rw [outcome, outcome, List.findSome?_cons]
  dsimp only [Part.fault?]
  cases parts.findSome? Part.fault? <;> rfl

theorem outcome_placeholder (constructs : Option ConstructQuery) (inside : List Char)
    (parts : List Part) : outcome constructs (.placeholder inside :: parts) =
      (do return (← filling constructs (nameOf inside)).toList ++ (← outcome constructs parts)) := by
  rw [outcome, outcome, List.findSome?_cons]
  simp only [Part.fault?, List.flatMap_cons, Part.filled, filling]
  cases Slot.ofPlaceholder? (nameOf inside) with
  | none => rfl
  | some slot =>
    dsimp only
    cases constructs.bind slot.regex? <;> cases parts.findSome? Part.fault? <;> rfl

variable {constructs : Option ConstructQuery} {s before more rest acc : List Char} {c : Char}

theorem fill_literal_cons (hc : ¬ opening <+: c :: s) :
    fill constructs none (c :: s) = (fill constructs none s).map (c :: ·) := by
  rw [fill]
  · cases fill constructs none s <;> rfl
  · rintro rest rfl rfl
    exact hc ⟨rest, rfl⟩

theorem fill_inside_cons (hc : ¬ closing <+: c :: s) :
    fill constructs (some acc) (c :: s) = fill constructs (some (c :: acc)) s := by
  rw [fill]
  rintro rest rfl rfl
  exact hc ⟨rest, rfl⟩

theorem fill_of_no_opening (h : ¬ opening <:+: s) : fill constructs none s = .ok s := by
  induction s with
  | nil => rfl
  | cons c s ih =>
    rw [List.infix_cons_iff, not_or] at h
    rw [fill_literal_cons h.1, ih h.2]
    rfl

theorem fill_of_firstAt (h : FirstAt opening s before more) :
    fill constructs none s = (fill constructs (some []) more).map (before ++ ·) := by
  induction before generalizing s with
  | nil =>
    rw [h.split]
    change fill constructs (some []) more = _
    cases fill constructs (some []) more <;> rfl
  | cons c before ih =>
    cases s with
    | nil => exact absurd h.split (by simp)
    | cons d s =>
      obtain ⟨rfl, hc, hrest⟩ := h.of_cons
      rw [fill_literal_cons hc, ih hrest]
      cases fill constructs (some []) more <;> rfl

theorem fill_inside_of_no_closing (h : ¬ closing <:+: s) (acc : List Char) :
    fill constructs (some acc) s = .error (nameOf (acc.reverse ++ s)) := by
  induction s generalizing acc with
  | nil =>
    rw [List.append_nil]
    rfl
  | cons c s ih =>
    rw [List.infix_cons_iff, not_or] at h
    rw [fill_inside_cons h.1, ih h.2, List.reverse_cons, List.append_assoc,
      List.singleton_append]

theorem fill_inside_of_firstAt {inside : List Char} (h : FirstAt closing s inside rest)
    (acc : List Char) : fill constructs (some acc) s =
      (do return (← filling constructs (nameOf (acc.reverse ++ inside))).toList ++
        (← fill constructs none rest)) := by
  induction inside generalizing s acc with
  | nil =>
    rw [h.split, List.append_nil]
    rfl
  | cons c inside ih =>
    cases s with
    | nil => exact absurd h.split (by simp)
    | cons d s =>
      obtain ⟨rfl, hc, hrest⟩ := h.of_cons
      rw [fill_inside_cons hc, ih hrest, List.reverse_cons, List.append_assoc,
        List.singleton_append]

/-- A text is filled by its reading. -/
theorem fill_of_isReading {parts : List Part} (h : IsReading s parts) :
    fill constructs none s = outcome constructs parts := by
  induction h with
  | literal hnone =>
    rw [fill_of_no_opening hnone, outcome_literal]
    simp [outcome, Except.map]
  | unterminated hopen hclose =>
    rw [fill_of_firstAt hopen, fill_inside_of_no_closing hclose, outcome_literal]
    rfl
  | placeholder hopen hclose _ ih =>
    rw [fill_of_firstAt hopen, fill_inside_of_firstAt hclose, outcome_literal,
      outcome_placeholder, ih]
    rfl

theorem render_of_isReading {text : String} {parts : List Part}
    (h : IsReading text.toList parts) (t : Template) : render t text constructs =
      match parts.findSome? Part.fault? with
      | some name => .error (.unresolvedPlaceholder t.name name)
      | none => .ok (String.ofList (parts.flatMap (Part.filled constructs))) := by
  rw [render, fill_of_isReading h, outcome]
  cases parts.findSome? Part.fault? <;> rfl

/-- A template that can be filled has no faults, and its parts are filled one by one. -/
theorem filled_of_render {t : Template} {text filled : String} {parts : List Part}
    (h : IsReading text.toList parts) (hfilled : render t text constructs = .ok filled) :
    (∀ part ∈ parts, part.fault? = none) ∧
      filled.toList = parts.flatMap (Part.filled constructs) := by
  rw [render_of_isReading h] at hfilled
  split at hfilled
  · cases hfilled
  · rename_i hnone
    rw [← Except.ok.inj hfilled, String.toList_ofList]
    exact ⟨List.findSome?_eq_none_iff.mp hnone, rfl⟩

/-- A template cannot be filled if one of its parts cannot. -/
theorem exists_error_iff {text : String} {parts : List Part} (h : IsReading text.toList parts)
    (t : Template) : (∃ e, render t text constructs = .error e) ↔
      (∃ rest, .unterminated rest ∈ parts) ∨
      ∃ inside, .placeholder inside ∈ parts ∧ ∀ s : Slot, s.placeholder ≠ nameOf inside := by
  have hfails : (∃ e, render t text constructs = .error e) ↔
      ∃ part ∈ parts, part.fault? ≠ none := by
    rw [render_of_isReading h]
    cases hfault : parts.findSome? Part.fault? with
    | none =>
      have hnone := List.findSome?_eq_none_iff.mp hfault
      constructor
      · rintro ⟨e, he⟩
        cases he
      · rintro ⟨part, hpart, hsome⟩
        exact absurd (hnone part hpart) hsome
    | some name =>
      obtain ⟨part, hpart, hsome⟩ := List.exists_of_findSome?_eq_some hfault
      exact ⟨fun _ => ⟨part, hpart, by simp [hsome]⟩, fun _ => ⟨_, rfl⟩⟩
  rw [hfails]
  constructor
  · rintro ⟨part, hpart, hfault⟩
    rcases Part.fault?_ne_none_iff.mp hfault with ⟨rest, rfl⟩ | ⟨inside, rfl, hslot⟩
    · exact Or.inl ⟨rest, hpart⟩
    · exact Or.inr ⟨inside, hpart, hslot⟩
  · rintro (⟨rest, hpart⟩ | ⟨inside, hpart, hslot⟩)
    · exact ⟨_, hpart, Part.fault?_ne_none_iff.mpr (Or.inl ⟨rest, rfl⟩)⟩
    · exact ⟨_, hpart, Part.fault?_ne_none_iff.mpr (Or.inr ⟨inside, rfl, hslot⟩)⟩

/-- **Templates are read in one pass.** A template is read in one way, whatever is to be filled in.
It cannot be filled if and only if a placeholder in it is not terminated or gives a name that no
slot has, and then the first such place is reported, whatever was to be filled in. If it can, its
text is left as it stands, and in place of each placeholder stands the predicate of the regular
expression for its slot, or nothing where none was given. -/
theorem render_onePass (t : Template) (text : String) :
    ∃ parts, (∀ others, IsReading text.toList others ↔ others = parts) ∧
      (∀ constructs, (∃ e, render t text constructs = .error e) ↔
        (∃ rest, .unterminated rest ∈ parts) ∨
        ∃ inside, .placeholder inside ∈ parts ∧ ∀ s : Slot, s.placeholder ≠ nameOf inside) ∧
      (∀ constructs constructs' e, render t text constructs = .error e →
        render t text constructs' = .error e) ∧
      ∀ constructs, render t text constructs =
        match parts.findSome? Part.fault? with
        | some name => .error (.unresolvedPlaceholder t.name name)
        | none => .ok (String.ofList (parts.flatMap (Part.filled constructs))) := by
  obtain ⟨parts, hparts⟩ := exists_isReading text.toList
  refine ⟨parts, fun others => ⟨fun h => h.unique hparts, fun h => h ▸ hparts⟩,
    fun _ => exists_error_iff hparts t, fun constructs constructs' e he => ?_,
    fun _ => render_of_isReading hparts t⟩
  rw [render_of_isReading hparts] at he ⊢
  cases hfault : parts.findSome? Part.fault? with
  | none =>
    rw [hfault] at he
    cases he
  | some name =>
    rw [hfault] at he
    exact he

end FeatureQuery

end SourceFacts
