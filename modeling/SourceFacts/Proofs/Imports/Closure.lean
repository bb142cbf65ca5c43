import Mathlib.Data.List.Perm.Subperm
import Mathlib.Data.List.Sort
import Mathlib.Data.String.Basic
import SourceFacts.Proofs.Imports.Expansion
import SourceFacts.Proofs.Lists
import SourceFacts.Proofs.Text.ByteOrder

/-!
# The expansion of paths as a closure

An expansion is in order, without repetition (`pairwise_expand`), so that it is told by what it
holds (`eq_expand_of_mem_iff`). What stands in a path that stands in another stands in the latter
too (`StandsIn.trans`). From these two it follows that paths are closed by one expansion, and that
neither the order nor repetitions of the paths matter (`expand_isClosure`).
-/

namespace SourceFacts.Imports

variable {paths : List String} {path imported : String} {s : String} {xs : List String}

/-! ## In order -/

theorem pairwise_insertSorted (h : xs.Pairwise (· < ·)) : (insertSorted s xs).Pairwise (· < ·) := by
  induction xs with
  | nil => exact List.pairwise_singleton _ s
  | cons t xs ih =>
    obtain ⟨hfirst, hrest⟩ := List.pairwise_cons.mp h
    unfold insertSorted
    split
    case isTrue hlt =>
      refine List.pairwise_cons.mpr ⟨fun x hx => ?_, h⟩
      rcases List.mem_cons.mp hx with rfl | hx
      · exact hlt
      · exact hlt.trans (hfirst x hx)
    case isFalse hnot =>
      split
      case isTrue => exact h
      case isFalse hne =>
        refine List.pairwise_cons.mpr ⟨fun x hx => ?_, ih hrest⟩
        rcases mem_insertSorted.mp hx with rfl | hx
        · exact lt_of_le_of_ne (not_lt.mp hnot) (Ne.symm hne)
        · exact hfirst x hx

theorem pairwise_expand (paths : List String) : (expand paths).Pairwise (· < ·) := by
  unfold expand
  -- What has been inserted so far is in order.
  exact List.foldlRecOn (motive := List.Pairwise (· < ·)) _ _ List.Pairwise.nil
    fun _ hsorted _ _ => pairwise_insertSorted hsorted

theorem nodup_expand (paths : List String) : (expand paths).Nodup :=
  (pairwise_expand paths).imp ne_of_lt

/-- A list in order that holds what the expansion does is the expansion. -/
theorem eq_expand_of_mem_iff (hsorted : xs.Pairwise (· < ·)) (hmem : ∀ x, x ∈ xs ↔ x ∈ expand paths) :
    xs = expand paths :=
  hsorted.eq_of_mem_iff (pairwise_expand paths) hmem

/-- Sorting leaves a list without repetition strictly increasing. -/
theorem pairwise_mergeSort (h : xs.Nodup) : (xs.mergeSort (· ≤ ·)).Pairwise (· < ·) := by
  have hsorted : (xs.mergeSort (· ≤ ·)).Pairwise fun a b => decide (a ≤ b) = true :=
    List.pairwise_mergeSort (by simpa using fun _ _ _ => le_trans) (by simpa using le_total) xs
  have hnodup : (xs.mergeSort (· ≤ ·)).Nodup := (List.mergeSort_perm xs _).nodup_iff.mpr h
  refine (hsorted.and hnodup).imp fun ⟨hle, hne⟩ => ?_
  exact lt_of_le_of_ne (of_decide_eq_true hle) hne

/-! ## Closed -/

theorem StandsIn.refl (path : String) : StandsIn path path := Or.inl rfl

theorem StandsIn.trans {outer : String} (h : StandsIn path imported)
    (h' : StandsIn imported outer) : StandsIn path outer := by
  rcases h with rfl | ⟨rest, rfl⟩
  · exact h'
  · rcases h' with rfl | ⟨more, rfl⟩
    · exact Or.inr ⟨rest, rfl⟩
    · exact Or.inr ⟨rest ++ "." ++ more, by simp only [String.append_assoc]⟩

theorem isDotsOnly_eq_false_iff {path : List Char} :
    isDotsOnly path = false ↔ ∃ c ∈ path, c ≠ '.' := by
  simp [isDotsOnly]

theorem expand_congr {other : List String} (h : ∀ p, p ∈ other ↔ p ∈ paths) :
    expand other = expand paths := by
  refine eq_expand_of_mem_iff (pairwise_expand other) fun x => ?_
  simp only [mem_expand, h]

theorem expand_expand (paths : List String) : expand (expand paths) = expand paths := by
  refine eq_expand_of_mem_iff (pairwise_expand _) fun x => ?_
  rw [mem_expand]
  constructor
  · rintro ⟨hdots, imported, himported, hstands⟩
    obtain ⟨-, outer, houter, hwithin⟩ := mem_expand.mp himported
    exact mem_expand.mpr ⟨hdots, outer, houter, hstands.trans hwithin⟩
  · intro hx
    exact ⟨(mem_expand.mp hx).1, x, hx, StandsIn.refl x⟩

theorem expand_mono {more : List String} (h : paths ⊆ more) : expand paths ⊆ expand more := by
  intro x hx
  obtain ⟨hdots, imported, himported, hstands⟩ := mem_expand.mp hx
  exact mem_expand.mpr ⟨hdots, imported, h himported, hstands⟩

theorem mem_expand_append {more : List String} :
    path ∈ expand (paths ++ more) ↔ path ∈ expand paths ∨ path ∈ expand more := by
  simp only [mem_expand, List.mem_append, or_and_right, exists_or, and_or_left]

/-- **Expansion is a closure operator.** An expansion is strictly increasing in the order of bytes
and holds the paths, and their parts that end before a dot, that are not made of dots only. So
expanding once more changes nothing, the order and repetition of the paths do not matter, more
paths give a longer expansion, and the expansion of two lists together is the union of theirs,
sorted. -/
theorem expand_isClosure (paths : List String) :
    (expand paths).Pairwise (fun a b => Text.bytes a < Text.bytes b) ∧
    (∀ path, path ∈ expand paths ↔ (∃ c ∈ path.toList, c ≠ '.') ∧
      ∃ imported ∈ paths, imported = path ∨ ∃ rest, imported = path ++ "." ++ rest) ∧
    expand (expand paths) = expand paths ∧
    (∀ other, (∀ p, p ∈ other ↔ p ∈ paths) → expand other = expand paths) ∧
    (∀ more, paths ⊆ more → (expand paths).Sublist (expand more)) ∧
    ∀ more, expand (paths ++ more) = (expand paths ∪ expand more).mergeSort (· ≤ ·) := by
  refine ⟨?_, ?_, expand_expand paths, fun _ => expand_congr, ?_, ?_⟩
  · exact (pairwise_expand paths).imp Text.bytes_lt_bytes
  · intro path
    rw [mem_expand, isDotsOnly_eq_false_iff]
    rfl
  · intro more h
    have hsubperm := (nodup_expand paths).subperm (expand_mono h)
    exact List.sublist_of_subperm_of_pairwise hsubperm (pairwise_expand paths)
      (pairwise_expand more)
  · intro more
    have hunion : (expand paths ∪ expand more).Nodup := (nodup_expand more).union _
    refine (eq_expand_of_mem_iff (pairwise_mergeSort hunion) fun x => ?_).symm
    rw [List.mem_mergeSort, List.mem_union_iff, mem_expand_append]

example : expand ["..models.user", "a.b", "."] = ["..models", "..models.user", "a", "a.b"] := by
  decide

end SourceFacts.Imports
