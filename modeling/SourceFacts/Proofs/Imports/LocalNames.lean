import SourceFacts.Proofs.Imports.Dotted
import Mathlib.Data.List.Pairwise

/-!
# Local spellings and what they mean

The two ways through the local names of a file, from a path to its spellings and from a text to
the path it refers to, go by the same entries (`spelling?_eq_some_iff`, `meaning?_eq_some_iff`).
A text that refers to a path is one of its spellings, by the longest name that covers the text;
where no name covers another the two are inverse to each other (`resolve?_localReferences`).
-/

namespace SourceFacts.ImportAliases

/-- An entry of local names spells a path by a text: as its own path and name, or with one
continuation after a dot on both sides. -/
def Spells (entry : String × String) (path text : String) : Prop :=
  (path = entry.1 ∧ text = entry.2) ∨
    ∃ rest, rest ≠ "" ∧ path = entry.1 ++ "." ++ rest ∧ text = entry.2 ++ "." ++ rest

/-- Neither name is the other or goes on after it with a dot. -/
def Apart (a b : String) : Prop :=
  a ≠ b ∧ (∀ rest, b ≠ a ++ "." ++ rest) ∧ ∀ rest, a ≠ b ++ "." ++ rest

variable {entry : String × String} {path text : String} {m : ImportAliases}

/-! ## Entries -/

theorem append_dot_ne (s rest : String) : s ++ "." ++ rest ≠ s := by
  intro h
  have hlen := congrArg String.length h
  simp only [String.length_append] at hlen
  have hdot : ".".length = 1 := rfl
  omega

theorem spelling?_eq_some_iff : spelling? path entry = some text ↔ Spells entry path text := by
  unfold spelling? Spells
  split
  case isTrue heq =>
    subst heq
    constructor
    · intro h
      exact Or.inl ⟨rfl, (Option.some.inj h).symm⟩
    · rintro (⟨-, rfl⟩ | ⟨rest, -, hpath, -⟩)
      · rfl
      · exact absurd hpath.symm (append_dot_ne _ _)
  case isFalse hne =>
    simp only [Option.map_eq_some_iff, afterDottedPrefix?_eq_some_iff]
    constructor
    · rintro ⟨rest, ⟨hrest, hpath⟩, rfl⟩
      exact Or.inr ⟨rest, hrest, hpath, rfl⟩
    · rintro (⟨rfl, -⟩ | ⟨rest, hrest, hpath, rfl⟩)
      · exact absurd rfl hne
      · exact ⟨rest, ⟨hrest, hpath⟩, rfl⟩

/-- The meaning of a text is the spelling of it by the entry turned around. -/
theorem meaning?_eq_spelling? (text : String) (entry : String × String) :
    meaning? text entry = spelling? text entry.swap := by
  unfold meaning? spelling?
  simp only [Prod.fst_swap, Prod.snd_swap, eq_comm]

theorem meaning?_eq_some_iff : meaning? text entry = some path ↔ Spells entry path text := by
  rw [meaning?_eq_spelling?, spelling?_eq_some_iff]
  simp only [Spells, Prod.fst_swap, Prod.snd_swap, and_comm]

theorem covers_of_spells (h : Spells entry path text) : IsDottedPrefix entry.2 text := by
  rcases h with ⟨-, htext⟩ | ⟨rest, hrest, -, htext⟩
  · exact Or.inl htext
  · exact Or.inr ⟨rest, hrest, htext⟩

theorem meaning?_eq_none_iff : meaning? text entry = none ↔ ¬ IsDottedPrefix entry.2 text := by
  rw [Option.eq_none_iff_forall_ne_some]
  constructor
  · rintro hnone (htext | ⟨rest, hrest, htext⟩)
    · exact hnone entry.1 (meaning?_eq_some_iff.mpr (Or.inl ⟨rfl, htext⟩))
    · exact hnone (entry.1 ++ "." ++ rest)
        (meaning?_eq_some_iff.mpr (Or.inr ⟨rest, hrest, rfl, htext⟩))
  · intro hnot path hsome
    exact hnot (covers_of_spells (meaning?_eq_some_iff.mp hsome))

theorem mem_localReferences :
    text ∈ m.localReferences path ↔ ∃ entry ∈ m.entries, Spells entry path text := by
  simp only [localReferences, List.mem_eraseDups, List.mem_filterMap, spelling?_eq_some_iff]

/-! ## The longest name -/

/-- What has been found among the entries seen: nothing where no name covers the text, else the
path by a longest name that does. -/
def Longest (text : String) (seen : List (String × String)) : Option (Nat × String) → Prop
  | none => ∀ entry ∈ seen, ¬ IsDottedPrefix entry.2 text
  | some (n, path) =>
    (∃ entry ∈ seen, Spells entry path text ∧ entry.2.length = n) ∧
      ∀ entry ∈ seen, IsDottedPrefix entry.2 text → entry.2.length ≤ n

theorem Longest.skip {seen : List (String × String)} {best : Option (Nat × String)}
    (h : Longest text seen best) (hskip : IsDottedPrefix entry.2 text →
      ∃ n path, best = some (n, path) ∧ entry.2.length ≤ n) :
    Longest text (seen ++ [entry]) best := by
  match best, h with
  | none, h =>
    intro other hother hcovers
    rcases List.mem_append.mp hother with hold | hnew
    · exact h other hold hcovers
    · obtain rfl := List.mem_singleton.mp hnew
      obtain ⟨n, path, hnone, -⟩ := hskip hcovers
      cases hnone
  | some (n, path), ⟨⟨found, hfound, hspells⟩, hlongest⟩ =>
    refine ⟨⟨found, List.mem_append_left _ hfound, hspells⟩, fun other hother hcovers => ?_⟩
    rcases List.mem_append.mp hother with hold | hnew
    · exact hlongest other hold hcovers
    · obtain rfl := List.mem_singleton.mp hnew
      obtain ⟨n', path', hsome, hle⟩ := hskip hcovers
      cases hsome
      exact hle

theorem Longest.take {seen : List (String × String)} {best : Option (Nat × String)}
    (h : Longest text seen best) (hspells : Spells entry path text)
    (hlonger : ∀ n path, best = some (n, path) → n < entry.2.length) :
    Longest text (seen ++ [entry]) (some (entry.2.length, path)) := by
  refine ⟨⟨entry, by simp, hspells, rfl⟩, fun other hother hcovers => ?_⟩
  rcases List.mem_append.mp hother with hold | hnew
  · match best, h with
    | none, h => exact absurd hcovers (h other hold)
    | some (n, path'), ⟨_, hlongest⟩ =>
      have hle := hlongest other hold hcovers
      have hlt := hlonger n path' rfl
      omega
  · exact Nat.le_of_eq (by rw [List.mem_singleton.mp hnew])

/-- The search keeps the path by the longest name among the entries passed. -/
theorem resolveFrom_longest (entries seen : List (String × String))
    (best : Option (Nat × String)) (h : Longest text seen best) :
    Longest text (seen ++ entries) (resolveFrom text best entries) := by
  induction entries generalizing seen best with
  | nil => simpa [resolveFrom] using h
  | cons entry rest ih =>
    rw [List.append_cons]
    unfold resolveFrom
    cases hmeaning : meaning? text entry with
    | none =>
      refine ih _ _ (h.skip fun hcovers => ?_)
      exact absurd hcovers (meaning?_eq_none_iff.mp hmeaning)
    | some path =>
      dsimp only
      split
      case isTrue hall =>
        refine ih _ _ (h.take (meaning?_eq_some_iff.mp hmeaning) ?_)
        rintro n path' rfl
        simpa using hall
      case isFalse hall =>
        refine ih _ _ (h.skip fun _ => ?_)
        cases best with
        | none => simp at hall
        | some found => exact ⟨found.1, found.2, rfl, by simpa using hall⟩

theorem longest_resolveFrom (m : ImportAliases) (text : String) :
    Longest text m.entries (resolveFrom text none m.entries) :=
  resolveFrom_longest m.entries [] none (by intro entry hentry; cases hentry)

/-- The entry by which a text is resolved spells the path, and its name is a longest one of those
that cover the text. -/
theorem exists_longest_of_resolve? (h : m.resolve? text = some path) :
    ∃ entry ∈ m.entries, Spells entry path text ∧
      ∀ other ∈ m.entries, IsDottedPrefix other.2 text → other.2.length ≤ entry.2.length := by
  obtain ⟨⟨n, path⟩, hfrom, rfl⟩ := Option.map_eq_some_iff.mp h
  have hlongest := longest_resolveFrom m text
  rw [hfrom] at hlongest
  obtain ⟨⟨entry, hentry, hspells, rfl⟩, hle⟩ := hlongest
  exact ⟨entry, hentry, hspells, hle⟩

/-- A text that some name covers is resolved. -/
theorem resolve?_ne_none (hentry : entry ∈ m.entries) (hcovers : IsDottedPrefix entry.2 text) :
    m.resolve? text ≠ none := by
  intro hnone
  have hlongest := longest_resolveFrom m text
  rw [Option.map_eq_none_iff.mp hnone] at hlongest
  exact hlongest entry hentry hcovers

/-! ## Both ways -/

theorem utf8ByteSize_le_of_prefix {a b : String} (h : a.toList <+: b.toList) :
    a.utf8ByteSize ≤ b.utf8ByteSize := by
  obtain ⟨rest, hrest⟩ := h
  have hb : b = a ++ String.ofList rest := String.toList_inj.mp (by simp [← hrest])
  rw [hb, String.utf8ByteSize_append]
  omega

/-- Of two names that cover a text, the shorter one is a beginning of the longer one. -/
theorem prefix_of_covers {a b : String} (ha : IsDottedPrefix a text) (hb : IsDottedPrefix b text)
    (hle : a.length ≤ b.length) : a.toList <+: b.toList := by
  rcases dotted_total ha hb with rfl | ⟨rest, hrest⟩ | ⟨rest, hrest⟩
  · exact List.prefix_rfl
  · exact ⟨_, (eq_dotted_iff.mp hrest).symm⟩
  · exfalso
    have hlen := congrArg String.length hrest
    simp only [String.length_append] at hlen
    have hdot : ".".length = 1 := rfl
    omega

/-- Names apart from each other do not cover the same text. -/
theorem not_apart_of_covers {a b : String} (ha : IsDottedPrefix a text)
    (hb : IsDottedPrefix b text) : ¬ Apart a b := by
  rintro ⟨hne, hafter, hbefore⟩
  rcases dotted_total ha hb with heq | ⟨rest, hrest⟩ | ⟨rest, hrest⟩
  · exact hne heq
  · exact hafter rest hrest
  · exact hbefore rest hrest

theorem Apart.symm {a b : String} (h : Apart a b) : Apart b a :=
  ⟨h.1.symm, h.2.2, h.2.1⟩

/-- Where names are apart, only one entry covers a text. -/
theorem eq_of_covers (hapart : m.entries.Pairwise fun a b => Apart a.2 b.2)
    {first second : String × String} (hfirst : first ∈ m.entries) (hsecond : second ∈ m.entries)
    (hcf : IsDottedPrefix first.2 text) (hcs : IsDottedPrefix second.2 text) :
    first = second := by
  by_contra hne
  have : Std.Symm fun a b : String × String => Apart a.2 b.2 := ⟨fun _ _ h => h.symm⟩
  exact not_apart_of_covers hcf hcs (hapart.forall hfirst hsecond hne)

/-- An entry gives a text one meaning. -/
theorem spells_unique {path' : String} (h : Spells entry path text)
    (h' : Spells entry path' text) : path = path' :=
  Option.some.inj ((meaning?_eq_some_iff.mpr h).symm.trans (meaning?_eq_some_iff.mpr h'))

/-- **Spellings and meanings.** A text that refers to a path is one of the spellings of the path,
and the name by which it was resolved is a longest one, in characters as in bytes, of those that
are the text or go on in it after a dot. Where no name is another one or goes on after it with a
dot, the spellings of a path are exactly the texts that refer to it. -/
theorem resolve?_localReferences (m : ImportAliases) (text path : String) :
    (m.resolve? text = some path →
      text ∈ m.localReferences path ∧
      ∃ entry ∈ m.entries, Spells entry path text ∧
        ∀ other ∈ m.entries, IsDottedPrefix other.2 text →
          other.2.length ≤ entry.2.length ∧ other.2.utf8ByteSize ≤ entry.2.utf8ByteSize) ∧
    ((m.entries.Pairwise fun a b => Apart a.2 b.2) →
      (text ∈ m.localReferences path ↔ m.resolve? text = some path)) := by
  have hmem : m.resolve? text = some path → text ∈ m.localReferences path := by
    intro h
    obtain ⟨entry, hentry, hspells, -⟩ := exists_longest_of_resolve? h
    exact mem_localReferences.mpr ⟨entry, hentry, hspells⟩
  refine ⟨fun h => ⟨hmem h, ?_⟩, fun hapart => ⟨fun href => ?_, hmem⟩⟩
  · obtain ⟨entry, hentry, hspells, hlongest⟩ := exists_longest_of_resolve? h
    refine ⟨entry, hentry, hspells, fun other hother hcovers => ?_⟩
    have hle := hlongest other hother hcovers
    exact ⟨hle, utf8ByteSize_le_of_prefix (prefix_of_covers hcovers (covers_of_spells hspells) hle)⟩
  · obtain ⟨entry, hentry, hspells⟩ := mem_localReferences.mp href
    obtain ⟨found, hfound⟩ :=
      Option.ne_none_iff_exists'.mp (resolve?_ne_none hentry (covers_of_spells hspells))
    obtain ⟨used, hused, hspellsUsed, -⟩ := exists_longest_of_resolve? hfound
    obtain rfl := eq_of_covers hapart hentry hused (covers_of_spells hspells)
      (covers_of_spells hspellsUsed)
    rw [hfound, spells_unique hspellsUsed hspells]

/-- Where one name goes on after another one, a spelling of one path can refer to another path. -/
example :
    let m : ImportAliases := ⟨[("app.models", "m"), ("app.users", "m.users")]⟩
    "m.users" ∈ m.localReferences "app.models.users" ∧ m.resolve? "m.users" = some "app.users" := by
  decide

end SourceFacts.ImportAliases
