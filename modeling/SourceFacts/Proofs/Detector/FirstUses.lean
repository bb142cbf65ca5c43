import Mathlib.Data.List.Induction
import SourceFacts.Detector

/-!
# The first detection of each use

`firstUses` walks a list of detections with the uses that it has met. What it keeps are the
detections that no earlier one shares the use with (`firstUses_eq_firstOfEach`). Which uses were
met before only matters for what is dropped (`firstUses_eq_filter`), so that two lists can be
treated one after the other (`firstUses_append`).
-/

namespace SourceFacts.Detector

/-- What two detections of one use have in common: the feature and the lines. -/
abbrev Use := String × Nat × Nat

/-- The uses that detections are of. -/
def uses (ds : List Detection) : List Use := ds.map Detection.useKey

/-- The detections of a list that no earlier one shares the use with. -/
def firstOfEach (ds : List Detection) : List Detection :=
  (ds.zipIdx.filter fun (d, i) => !(uses (ds.take i)).contains d.useKey).map Prod.fst

variable {seen : List Use} {ds : List Detection} {d : Detection} {u : Use}

@[simp] theorem uses_cons (d : Detection) (ds : List Detection) :
    uses (d :: ds) = d.useKey :: uses ds := rfl

theorem mem_uses_of_mem (h : d ∈ ds) : d.useKey ∈ uses ds := List.mem_map_of_mem h

/-! ## One more detection -/

theorem firstUses_cons_of_mem (h : d.useKey ∈ seen) (ds : List Detection) :
    firstUses seen (d :: ds) = firstUses seen ds := by
  rw [firstUses, if_pos (by simpa using h)]

theorem firstUses_cons_of_notMem (h : d.useKey ∉ seen) (ds : List Detection) :
    firstUses seen (d :: ds) = d :: firstUses (d.useKey :: seen) ds := by
  rw [firstUses, if_neg (by simpa using h)]

theorem firstUses_sublist (seen : List Use) (ds : List Detection) :
    (firstUses seen ds).Sublist ds := by
  induction ds generalizing seen with
  | nil => exact List.Sublist.refl _
  | cons d ds ih =>
    by_cases hd : d.useKey ∈ seen
    · rw [firstUses_cons_of_mem hd]
      exact (ih seen).cons d
    · rw [firstUses_cons_of_notMem hd]
      exact (ih _).cons_cons d

/-! ## Which uses are left -/

theorem mem_uses_firstUses :
    u ∈ uses (firstUses seen ds) ↔ u ∈ uses ds ∧ u ∉ seen := by
  induction ds generalizing seen with
  | nil => simp [uses, firstUses]
  | cons d ds ih =>
    by_cases hd : d.useKey ∈ seen
    · rw [firstUses_cons_of_mem hd, ih, uses_cons, List.mem_cons]
      constructor
      · rintro ⟨hu, hseen⟩
        exact ⟨Or.inr hu, hseen⟩
      · rintro ⟨rfl | hu, hseen⟩
        · exact absurd hd hseen
        · exact ⟨hu, hseen⟩
    · rw [firstUses_cons_of_notMem hd, uses_cons, uses_cons, List.mem_cons, List.mem_cons, ih,
        List.mem_cons, not_or]
      constructor
      · rintro (rfl | ⟨hu, -, hseen⟩)
        · exact ⟨Or.inl rfl, hd⟩
        · exact ⟨Or.inr hu, hseen⟩
      · rintro ⟨rfl | hu, hseen⟩
        · exact Or.inl rfl
        · by_cases heq : u = d.useKey
          · exact Or.inl heq
          · exact Or.inr ⟨hu, heq, hseen⟩

/-- No use is left twice. -/
theorem nodup_uses_firstUses (seen : List Use) (ds : List Detection) :
    (uses (firstUses seen ds)).Nodup := by
  induction ds generalizing seen with
  | nil => exact List.nodup_nil
  | cons d ds ih =>
    by_cases hd : d.useKey ∈ seen
    · rw [firstUses_cons_of_mem hd]
      exact ih seen
    · rw [firstUses_cons_of_notMem hd, uses_cons, List.nodup_cons]
      exact ⟨fun hmem => (mem_uses_firstUses.mp hmem).2 List.mem_cons_self, ih _⟩

/-! ## What was met before -/

/-- Only which uses were met before counts, not in which order or how often. -/
theorem firstUses_congr {seen' : List Use} (ds : List Detection)
    (h : ∀ u, u ∈ seen ↔ u ∈ seen') : firstUses seen ds = firstUses seen' ds := by
  induction ds generalizing seen seen' with
  | nil => rfl
  | cons d ds ih =>
    by_cases hd : d.useKey ∈ seen
    · rw [firstUses_cons_of_mem hd, firstUses_cons_of_mem ((h _).mp hd), ih h]
    · rw [firstUses_cons_of_notMem hd, firstUses_cons_of_notMem fun h' => hd ((h _).mpr h')]
      have hcons : ∀ u, u ∈ d.useKey :: seen ↔ u ∈ d.useKey :: seen' := by
        intro u
        rw [List.mem_cons, List.mem_cons, h u]
      rw [ih hcons]

theorem firstUses_middle (more seen : List Use) (u : Use) (ds : List Detection) :
    firstUses (more ++ u :: seen) ds = firstUses (u :: (more ++ seen)) ds :=
  firstUses_congr ds fun _ => List.perm_middle.mem_iff

/-- A use that was met before may be met once more. -/
theorem firstUses_cons_seen (h : u ∈ seen) (ds : List Detection) :
    firstUses (u :: seen) ds = firstUses seen ds := by
  refine firstUses_congr ds fun v => ?_
  rw [List.mem_cons]
  constructor
  · rintro (rfl | hv)
    · exact h
    · exact hv
  · exact Or.inr

/-- More uses met before only take away from what is kept. -/
theorem firstUses_eq_filter (more seen : List Use) (ds : List Detection) :
    firstUses (more ++ seen) ds =
      (firstUses seen ds).filter fun d => !more.contains d.useKey := by
  induction ds generalizing seen with
  | nil => rfl
  | cons d ds ih =>
    by_cases hseen : d.useKey ∈ seen
    · rw [firstUses_cons_of_mem hseen, firstUses_cons_of_mem (List.mem_append_right more hseen),
        ih]
    · rw [firstUses_cons_of_notMem hseen, List.filter_cons, ← ih, firstUses_middle]
      by_cases hmore : d.useKey ∈ more
      · have hd : d.useKey ∈ more ++ seen := List.mem_append_left seen hmore
        rw [firstUses_cons_of_mem hd, firstUses_cons_seen hd, if_neg (by simpa using hmore)]
      · rw [firstUses_cons_of_notMem (by simp [hmore, hseen]), if_pos (by simpa using hmore)]

theorem firstUses_append_seen (seen : List Use) (xs ys : List Detection) :
    firstUses seen (xs ++ ys) = firstUses seen xs ++ firstUses (uses xs ++ seen) ys := by
  induction xs generalizing seen with
  | nil => rfl
  | cons d xs ih =>
    rw [List.cons_append, uses_cons, List.cons_append]
    by_cases hd : d.useKey ∈ seen
    · have hmem : d.useKey ∈ uses xs ++ seen := List.mem_append_right _ hd
      rw [firstUses_cons_of_mem hd, firstUses_cons_of_mem hd, ih, firstUses_cons_seen hmem]
    · rw [firstUses_cons_of_notMem hd, firstUses_cons_of_notMem hd, ih, firstUses_middle,
        List.cons_append]

/-- What is kept of one list after another is what is kept of the first, then what is kept of the
second by itself, without the uses that the first has. -/
theorem firstUses_append (xs ys : List Detection) :
    firstUses [] (xs ++ ys) = firstUses [] xs ++
      (firstUses [] ys).filter fun d => !(uses (firstUses [] xs)).contains d.useKey := by
  have hsame : ∀ u, u ∈ uses xs ++ [] ↔ u ∈ uses (firstUses [] xs) ++ [] := by
    intro u
    simp [mem_uses_firstUses]
  rw [firstUses_append_seen, firstUses_congr ys hsame, firstUses_eq_filter]

/-! ## The first of each -/

theorem firstOfEach_concat (ds : List Detection) (d : Detection) :
    firstOfEach (ds ++ [d]) =
      firstOfEach ds ++ if d.useKey ∈ uses ds then [] else [d] := by
  have hold : ∀ e ∈ ds.zipIdx,
      (!(uses ((ds ++ [d]).take e.2)).contains e.1.useKey) =
        !(uses (ds.take e.2)).contains e.1.useKey := by
    intro e he
    rw [List.take_append_of_le_length (Nat.le_of_lt (List.snd_lt_of_mem_zipIdx he))]
  simp only [firstOfEach, List.zipIdx_append, List.filter_append, List.map_append,
    List.filter_congr hold]
  by_cases hd : d.useKey ∈ uses ds <;> simp [hd]

theorem firstUses_eq_firstOfEach (ds : List Detection) : firstUses [] ds = firstOfEach ds := by
  induction ds using List.reverseRec with
  | nil => rfl
  | append_singleton ds d ih =>
    rw [firstUses_append_seen, firstOfEach_concat, ih]
    by_cases hd : d.useKey ∈ uses ds
    · rw [firstUses_cons_of_mem (by simpa using hd), if_pos hd, firstUses]
    · rw [firstUses_cons_of_notMem (by simpa using hd), if_neg hd, firstUses]

end SourceFacts.Detector
