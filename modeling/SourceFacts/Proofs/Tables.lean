import Mathlib.Data.String.Basic
import SourceFacts.Table

/-!
# Tables

What a table holds once a value has been put under a key (`get?_set`). Entries that are in order of
their keys stay so (`pairwise_setIn`).
-/

namespace SourceFacts.Table

variable {α : Type}

theorem mem_setIn {key : String} {value : α} {entries : List (String × α)}
    {e : String × α} (h : e ∈ setIn key value entries) : e = (key, value) ∨ e ∈ entries := by
  induction entries with
  | nil => exact Or.inl (List.mem_singleton.mp h)
  | cons entry rest ih =>
    obtain ⟨k, v⟩ := entry
    unfold setIn at h
    split at h
    · exact List.mem_cons.mp h
    · split at h
      · exact (List.mem_cons.mp h).imp_right (List.mem_cons_of_mem _)
      · rcases List.mem_cons.mp h with rfl | hrest
        · exact Or.inr List.mem_cons_self
        · exact (ih hrest).imp_right (List.mem_cons_of_mem _)

theorem pairwise_setIn {key : String} {value : α} {entries : List (String × α)}
    (h : entries.Pairwise fun a b => a.1 < b.1) :
    (setIn key value entries).Pairwise fun a b => a.1 < b.1 := by
  induction entries with
  | nil => simp [setIn]
  | cons entry rest ih =>
    obtain ⟨k, v⟩ := entry
    obtain ⟨hfirst, hrest⟩ := List.pairwise_cons.mp h
    unfold setIn
    split
    case isTrue hlt =>
      refine List.pairwise_cons.mpr ⟨fun b hb => ?_, h⟩
      rcases List.mem_cons.mp hb with rfl | hb
      · exact hlt
      · exact String.lt_trans hlt (hfirst b hb)
    case isFalse hnlt =>
      split
      case isTrue heq => exact List.pairwise_cons.mpr ⟨heq ▸ hfirst, hrest⟩
      case isFalse hne =>
        have hgt : k < key := lt_of_le_of_ne (not_lt.mp hnlt) (Ne.symm hne)
        refine List.pairwise_cons.mpr ⟨fun b hb => ?_, ih hrest⟩
        rcases mem_setIn hb with rfl | hold
        · exact hgt
        · exact hfirst b hold

theorem find?_setIn (key key' : String) (value : α) (entries : List (String × α)) :
    ((setIn key value entries).find? (·.1 == key')).map (·.2) =
      if key' = key then some value else (entries.find? (·.1 == key')).map (·.2) := by
  induction entries with
  | nil =>
    by_cases hkey : key' = key
    · simp [setIn, hkey]
    · simp [setIn, hkey, Ne.symm hkey]
  | cons entry rest ih =>
    obtain ⟨k, v⟩ := entry
    unfold setIn
    split
    · by_cases hkey : key' = key
      · simp [hkey]
      · simp [hkey, Ne.symm hkey, List.find?_cons]
    · split
      case isTrue heq =>
        subst heq
        by_cases hkey : key' = key
        · simp [hkey]
        · simp [hkey, Ne.symm hkey]
      case isFalse hne =>
        by_cases hk : k = key'
        · subst hk
          simp [Ne.symm hne]
        · simpa [List.find?_cons, hk] using ih

@[simp] theorem get?_set (t : Table α) (key key' : String) (value : α) :
    (t.set key value).get? key' = if key' = key then some value else t.get? key' :=
  find?_setIn key key' value t.entries

theorem isSome_get? (t : Table α) (key : String) : (t.get? key).isSome = t.has key := by
  rw [Bool.eq_iff_iff, get?, has, Option.isSome_map, List.find?_isSome, List.any_eq_true]

end SourceFacts.Table
