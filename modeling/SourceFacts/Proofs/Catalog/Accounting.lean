import Mathlib.Data.List.Forall2
import Mathlib.Data.List.Induction
import SourceFacts.Proofs.Catalog.Merging
import SourceFacts.Proofs.Files.Below

/-!
# What becomes of catalog entries

Of what the files of a load contribute, some entries are to be stored and all else is to be
refused: an entry is stored if it has no fault and is the first such one in its family. A load
accounts for some items if it has done just that with them (`Accounts`).

Loading looks for repetitions in two places, in the file and in the family. Each entry is accounted
for nevertheless (`Accounts.addEntries`), because an entry that was met before in a file has been
taken in the family, too.
-/

namespace SourceFacts

namespace Catalog

/-- What a file contributes: an entry of a family, or nothing but a refusal. -/
inductive Item where
  | unusable (path : String)
  | entry (family : Family) (f : Feature)

namespace Item

/-- Whether an item has an entry of a family that is without fault. -/
def isSound (family : Family) (entry : String × String) : Item → Bool
  | .unusable _ => false
  | .entry other f => other = family && f.fault?.isNone && f.entry = entry

/-- Whether an item is to be stored after others: it is an entry without fault, and the first such
one in its family. -/
def isFirst (before : List Item) : Item → Bool
  | .unusable _ => false
  | .entry family f => f.fault?.isNone && !before.any (isSound family f.entry)

/-- Whether an error is the refusal of an item. -/
def Refuses : Item → ConfigError → Prop
  | .unusable path, e => ∃ reason, e = .malformedCatalog path reason
  | .entry _ f, e => ∃ reason, e = .invalidCatalogEntry f.library f.key reason

end Item

/-- The items, each with whether it is to be stored. -/
def verdicts (items : List Item) : List (Item × Bool) :=
  items.mapIdx fun n i => (i, i.isFirst (items.take n))

/-- The features that are to be stored in a family. -/
def stored (family : Family) (items : List Item) : List Feature :=
  (verdicts items).filterMap fun
    | (.entry other f, true) => if other = family then some f else none
    | _ => none

/-- The items that are to be refused. -/
def dropped (items : List Item) : List Item :=
  (verdicts items).filterMap fun (i, first) => if first then none else some i

/-- A load has stored what is to be stored of some items, and has refused the others, each once
and in order. -/
structure Accounts (items : List Item) (l : CatalogLoad) : Prop where
  stored : ∀ family, l.catalog.ofFamily family = stored family items
  refused : List.Forall₂ Item.Refuses (dropped items) l.refused

variable {items : List Item} {i : Item} {family : Family} {f : Feature} {l : CatalogLoad}

/-! ## One item more -/

theorem verdicts_concat (items : List Item) (i : Item) :
    verdicts (items ++ [i]) = verdicts items ++ [(i, i.isFirst items)] := by
  have hbefore : ∀ n (hn : n < items.length), (items ++ [i]).take n = items.take n :=
    fun n hn => List.take_append_of_le_length (Nat.le_of_lt hn)
  rw [verdicts, List.mapIdx_concat, List.take_left', verdicts]
  · congr 1
    rw [List.mapIdx_eq_mapIdx_iff]
    intro n hn
    rw [hbefore n hn]
  · rfl

theorem stored_concat_of_first (h : (Item.entry family f).isFirst items = true)
    (other : Family) : stored other (items ++ [.entry family f]) =
      stored other items ++ if family = other then [f] else [] := by
  rw [stored, verdicts_concat, List.filterMap_append, h]
  by_cases hfamily : family = other <;> simp [stored, hfamily]

theorem stored_concat_of_not_first (h : i.isFirst items = false) (family : Family) :
    stored family (items ++ [i]) = stored family items := by
  rw [stored, verdicts_concat, List.filterMap_append, h]
  cases i <;> simp [stored]

theorem dropped_concat (items : List Item) (i : Item) :
    dropped (items ++ [i]) = dropped items ++ if i.isFirst items then [] else [i] := by
  rw [dropped, verdicts_concat, List.filterMap_append]
  by_cases hfirst : i.isFirst items = true <;> simp [dropped, hfirst]

/-- The entries that are stored are those of the sound items. -/
theorem mem_entries_stored {entry : String × String} :
    entry ∈ (stored family items).map Feature.entry ↔
      ∃ i ∈ items, i.isSound family entry = true := by
  induction items using List.reverseRecOn with
  | nil => simp [stored, verdicts]
  | append_singleton items i ih =>
    simp only [List.mem_append, List.mem_singleton, or_and_right, exists_or, exists_eq_left]
    rw [← ih]
    cases hfirst : i.isFirst items with
    | true =>
      cases i with
      | unusable path => cases hfirst
      | entry other f =>
        have hfault : f.fault?.isNone = true := by
          simp only [Item.isFirst, Bool.and_eq_true] at hfirst
          exact hfirst.1
        rw [stored_concat_of_first hfirst]
        by_cases hfamily : other = family <;> simp [Item.isSound, hfamily, hfault, eq_comm]
    | false =>
      -- A sound item that is not the first one has been preceded by a sound one.
      rw [stored_concat_of_not_first hfirst, or_iff_left_of_imp]
      intro hsound
      rw [ih]
      cases i with
      | unusable path => cases hsound
      | entry other f =>
        simp only [Item.isSound, Bool.and_eq_true, decide_eq_true_eq] at hsound
        obtain ⟨⟨rfl, hfault⟩, rfl⟩ := hsound
        simpa [Item.isFirst, hfault] using hfirst

theorem isFirst_iff : (Item.entry family f).isFirst items = true ↔
    f.fault? = none ∧ f.entry ∉ (stored family items).map Feature.entry := by
  rw [mem_entries_stored]
  simp [Item.isFirst]

/-- What is stored has no entry twice and no faults. -/
theorem wellFormed_stored (items : List Item) (family : Family) :
    ((stored family items).map Feature.entry).Nodup ∧
      ∀ f ∈ stored family items, f.fault? = none := by
  induction items using List.reverseRecOn with
  | nil => simp [stored, verdicts]
  | append_singleton items i ih =>
    cases hfirst : i.isFirst items with
    | false => rwa [stored_concat_of_not_first hfirst]
    | true =>
      cases i with
      | unusable path => cases hfirst
      | entry other f =>
        obtain ⟨hfault, hnew⟩ := isFirst_iff.mp hfirst
        rw [stored_concat_of_first hfirst]
        by_cases hfamily : other = family
        · subst hfamily
          rw [if_pos rfl, List.map_append, List.map_singleton, ← List.concat_eq_append]
          refine ⟨ih.1.concat hnew, fun g hg => ?_⟩
          rcases List.mem_append.mp hg with hg | hg
          · exact ih.2 g hg
          · rwa [List.mem_singleton.mp hg]
        · rwa [if_neg hfamily, List.append_nil]

theorem refuses_refusal (family : Family) (f : Feature) (reason : String) :
    (Item.entry family f).Refuses (refusal f reason) := ⟨reason, rfl⟩

/-! ## One file more -/

namespace Accounts

theorem wellFormed (h : Accounts items l) : l.catalog.WellFormed where
  distinct family := by rw [h.stored]; exact (wellFormed_stored items family).1
  faultless family := by rw [h.stored]; exact (wellFormed_stored items family).2

theorem has_iff (h : Accounts items l) : l.catalog.has family f = true ↔
    f.entry ∈ (Catalog.stored family items).map Feature.entry := by
  rw [Catalog.has_iff, h.stored]

theorem refuse (h : Accounts items l) (hi : i.isFirst items = false) {e : ConfigError}
    (he : i.Refuses e) : Accounts (items ++ [i]) (l.refuse e) where
  stored family := by
    rw [stored_concat_of_not_first hi]
    exact h.stored family
  refused := by
    rw [dropped_concat, hi]
    exact List.rel_append h.refused (.cons he .nil)

theorem add (h : Accounts items l) (hi : (Item.entry family f).isFirst items = true) :
    Accounts (items ++ [.entry family f]) { l with catalog := l.catalog.add f family } where
  stored other := by
    rw [stored_concat_of_first hi, ← h.stored]
    by_cases hfamily : family = other
    · subst hfamily
      rw [if_pos rfl, ofFamily_add_self]
    · rw [if_neg hfamily, List.append_nil, ofFamily_add_of_ne _ _ (Ne.symm hfamily)]
  refused := by
    rw [dropped_concat, hi, if_pos rfl, List.append_nil]
    exact h.refused

/-- An entry without fault is stored, or refused because it is taken. -/
theorem insert (h : Accounts items l) (hf : f.fault? = none) (family : Family) :
    Accounts (items ++ [.entry family f]) (l.insert family f) := by
  cases hhas : l.catalog.has family f with
  | true =>
    rw [CatalogLoad.insert_of_has hhas]
    refine h.refuse ?_ (refuses_refusal family f _)
    rw [Bool.eq_false_iff, Ne, isFirst_iff, ← h.has_iff]
    exact fun hfirst => hfirst.2 hhas
  | false =>
    rw [CatalogLoad.insert_of_not_has hhas]
    refine h.add (isFirst_iff.mpr ⟨hf, ?_⟩)
    rw [← h.has_iff, hhas]
    exact Bool.false_ne_true

/-- The entries of a file; those met before in it have been sound. -/
theorem addEntries (h : Accounts items l) (path : String) {seen fs : List Feature}
    (hseen : ∀ g ∈ seen, ∃ i ∈ items, i.isSound family g.entry = true) :
    Accounts (items ++ fs.map (.entry family)) (CatalogLoad.addEntries path family seen fs l) := by
  induction fs generalizing items l seen with
  | nil => simpa [CatalogLoad.addEntries] using h
  | cons f fs ih =>
    have hlater : ∀ g ∈ seen,
        ∃ i ∈ items ++ [.entry family f], i.isSound family g.entry = true := by
      intro g hg
      obtain ⟨i, hi, hsound⟩ := hseen g hg
      exact ⟨i, List.mem_append_left _ hi, hsound⟩
    rw [List.map_cons, ← List.singleton_append, ← List.append_assoc]
    rw [CatalogLoad.addEntries]
    split
    · rename_i fault hfault
      refine ih (h.refuse ?_ (refuses_refusal family f _)) hlater
      simp [Item.isFirst, hfault]
    · rename_i hfault
      split
      · rename_i hsame
        refine ih (h.refuse ?_ (refuses_refusal family f _)) hlater
        obtain ⟨g, hg, hentry⟩ := List.any_eq_true.mp hsame
        rw [Bool.eq_false_iff, Ne, isFirst_iff, mem_entries_stored, sameEntry_iff.mp hentry]
        exact fun hfirst => hfirst.2 (hseen g hg)
      · refine ih (h.insert hfault family) fun g hg => ?_
        rcases List.mem_cons.mp hg with rfl | hg
        · exact ⟨.entry family g, by simp, by simp [Item.isSound, hfault]⟩
        · exact hlater g hg

end Accounts

end Catalog

end SourceFacts
