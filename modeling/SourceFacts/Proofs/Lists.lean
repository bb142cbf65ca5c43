import Mathlib.Data.List.Forall2
import Mathlib.Data.List.Nodup

/-!
# Lists

What is left of a list once later repetitions are dropped has none (`nodup_eraseDups`). A list
splits in one way only at the first place where a separator stands (`append_cons_inj`), which is
behind all that does not have it (`exists_of_append_eq`). What is made of some items of a list, is
made of these in order (`filterMap_eq_map_filter`, `forall₂_filter_filterMap`), and each once, in
the order of the items that it is first made of (`pairwise_findIdx_eraseDups`). Of two lists that
go in parallel, each item of the first has its partner in the second (`exists_of_forall₂`). What
meets one of two tests can be taken apart into what meets the second and what only meets the first
(`perm_filter_or`). In a range every number stands at its own place (`idxOf_range`).
-/

namespace SourceFacts.Lists

variable {α : Type}

theorem append_cons_inj {s : α} {xs xs' ys ys' : List α} (hxs : s ∉ xs) (hxs' : s ∉ xs')
    (h : xs ++ s :: ys = xs' ++ s :: ys') : xs = xs' ∧ ys = ys' := by
  induction xs generalizing xs' with
  | nil =>
    cases xs' with
    | nil => exact ⟨rfl, (List.cons.inj h).2⟩
    | cons a xs' => exact absurd ((List.cons.inj h).1 ▸ List.mem_cons_self) hxs'
  | cons a xs ih =>
    cases xs' with
    | nil => exact absurd ((List.cons.inj h).1 ▸ List.mem_cons_self) hxs
    | cons b xs' =>
      obtain ⟨rfl, htail⟩ := List.cons.inj h
      obtain ⟨rfl, hys⟩ := ih (List.not_mem_of_not_mem_cons hxs)
        (List.not_mem_of_not_mem_cons hxs') htail
      exact ⟨rfl, hys⟩

/-- An item that a list does not have stands behind it. -/
theorem exists_of_append_eq {s : α} {xs ys front back : List α} (hs : s ∉ xs)
    (h : xs ++ ys = front ++ s :: back) :
    ∃ more, front = xs ++ more ∧ ys = more ++ s :: back := by
  rcases List.append_eq_append_iff.mp h with hbehind | ⟨more, hxs, hback⟩
  · exact hbehind
  · cases more with
    | nil => exact ⟨[], by rw [hxs, List.append_nil, List.append_nil], hback.symm⟩
    | cons a more =>
      obtain rfl := (List.cons.inj hback).1
      exact absurd (hxs ▸ List.mem_append_right front List.mem_cons_self) hs

theorem filterMap_eq_map_filter {β : Type} {f : α → Option β} {p : α → Bool} {g : α → β}
    {xs : List α} (h : ∀ a ∈ xs, f a = if p a then some (g a) else none) :
    xs.filterMap f = (xs.filter p).map g := by
  induction xs with
  | nil => rfl
  | cons a xs ih =>
    have hrest := ih fun b hb => h b (List.mem_cons_of_mem a hb)
    have hfirst := h a List.mem_cons_self
    by_cases hp : p a
    · rw [if_pos hp] at hfirst
      rw [List.filterMap_cons_some hfirst, List.filter_cons_of_pos hp, List.map_cons, hrest]
    · rw [if_neg hp] at hfirst
      rw [List.filterMap_cons_none hfirst, List.filter_cons_of_neg hp, hrest]

theorem forall₂_filterMap {β : Type} (f : α → Option β) (xs : List α) :
    List.Forall₂ (fun a b => f a = some b) (xs.filter fun a => (f a).isSome) (xs.filterMap f) := by
  induction xs with
  | nil => exact .nil
  | cons a xs ih =>
    cases ha : f a with
    | none =>
      rw [List.filterMap_cons_none ha, List.filter_cons_of_neg (by simp [ha])]
      exact ih
    | some b =>
      rw [List.filterMap_cons_some ha, List.filter_cons_of_pos (by simp [ha])]
      exact .cons ha ih

theorem forall₂_filter_filterMap {β : Type} {R : α → β → Prop} {f : α → Option β} {p : α → Bool}
    (hp : ∀ a, (f a).isSome = p a) (hf : ∀ a b, f a = some b → R a b) (xs : List α) :
    List.Forall₂ R (xs.filter p) (xs.filterMap f) := by
  rw [← List.filter_congr fun a _ => hp a]
  exact (forall₂_filterMap f xs).imp hf

theorem exists_of_forall₂ {β : Type} {R : α → β → Prop} {xs : List α} {ys : List β} {a : α}
    (h : List.Forall₂ R xs ys) (ha : a ∈ xs) : ∃ b ∈ ys, R a b := by
  induction h with
  | nil => cases ha
  | cons hfirst _ ih =>
    rcases List.mem_cons.mp ha with rfl | hrest
    · exact ⟨_, List.mem_cons_self, hfirst⟩
    · obtain ⟨b, hb, hab⟩ := ih hrest
      exact ⟨b, List.mem_cons_of_mem _ hb, hab⟩

/-- What meets one of two tests meets the second, or fails it and meets the first. -/
theorem perm_filter_or (p q : α → Bool) (xs : List α) :
    (xs.filter fun x => p x || q x).Perm
      (xs.filter q ++ (xs.filter fun x => !q x).filter p) := by
  have hsplit := List.filter_append_perm q (xs.filter fun x => p x || q x)
  have hboth : (xs.filter fun x => p x || q x).filter q = xs.filter q := by
    rw [List.filter_filter]
    exact List.filter_congr fun x _ => by cases q x <;> simp
  have hrest : (xs.filter fun x => p x || q x).filter (fun x => !q x) =
      (xs.filter fun x => !q x).filter p := by
    rw [List.filter_filter, List.filter_filter]
    exact List.filter_congr fun x _ => by cases q x <;> cases p x <;> rfl
  rw [hboth, hrest] at hsplit
  exact hsplit.symm

theorem getLast?_cons_getD {β : Type} (f : α → β) (a : α) (xs : List α) (b : β) :
    ((a :: xs).getLast?.map f).getD b = (xs.getLast?.map f).getD (f a) := by
  rw [List.getLast?_cons]
  cases xs.getLast? <;> rfl

theorem idxOf_range {n i : Nat} (hi : i < n) : (List.range n).idxOf i = i := by
  have hplace := List.nodup_range.idxOf_getElem i (by simpa using hi)
  rwa [List.getElem_range] at hplace

variable [DecidableEq α]

theorem nodup_eraseDups (xs : List α) : xs.eraseDups.Nodup := by
  generalize hn : xs.length = n
  induction n using Nat.strongRecOn generalizing xs with
  | ind n ih =>
    cases xs with
    | nil => simp
    | cons a as =>
      rw [List.eraseDups_cons, List.nodup_cons]
      have hle := List.length_filter_le (fun b => !b == a) as
      rw [List.length_cons] at hn
      refine ⟨?_, ih _ (by omega) _ rfl⟩
      rw [List.mem_eraseDups]
      simp

theorem eraseDups_concat (xs : List α) (a : α) :
    (xs ++ [a]).eraseDups = xs.eraseDups ++ if a ∈ xs then [] else [a] := by
  rw [List.eraseDups_append]
  by_cases ha : a ∈ xs
  · simp [List.removeAll, ha]
  · simp [List.removeAll, ha, List.eraseDups_cons]

/-- Where no key comes twice, an entry is found by its key. -/
theorem find?_of_mem {β : Type} {entries : List (α × β)} {entry : α × β}
    (hkeys : (entries.map Prod.fst).Nodup) (h : entry ∈ entries) :
    entries.find? (·.1 == entry.1) = some entry := by
  induction entries with
  | nil => cases h
  | cons first rest ih =>
    obtain ⟨hfirst, hrest⟩ := List.nodup_cons.mp hkeys
    rcases List.mem_cons.mp h with rfl | h
    · simp
    · have hne : first.1 ≠ entry.1 := fun heq => hfirst (heq ▸ List.mem_map_of_mem h)
      rw [List.find?_cons_of_neg (by simpa using hne)]
      exact ih hrest h

theorem pairwise_findIdx_eraseDups {β : Type} (f : β → Option α) (xs : List β) :
    (xs.filterMap f).eraseDups.Pairwise fun a b =>
      xs.findIdx (f · == some a) < xs.findIdx (f · == some b) := by
  induction xs generalizing f with
  | nil => exact List.Pairwise.nil
  | cons x xs ih =>
    cases hx : f x with
    | none =>
      rw [List.filterMap_cons_none hx]
      refine (ih f).imp fun {a b} hlt => ?_
      simpa [List.findIdx_cons, hx] using hlt
    | some c =>
      -- What differs from the first is made of the rest, by the same function without the first.
      let g : β → Option α := fun y => (f y).filter (!· == c)
      have hlater : ∀ a, a ≠ c → (x :: xs).findIdx (f · == some a) =
          xs.findIdx (g · == some a) + 1 := by
        intro a ha
        have hsame : ∀ y, (f y == some a) = (g y == some a) := by
          intro y
          simp only [g]
          cases f y with
          | none => rfl
          | some b => by_cases hb : b = c <;> simp [Option.filter, hb, Ne.symm ha]
        have hfirst : (some c == some a) = false := by simpa using Ne.symm ha
        rw [List.findIdx_cons, hx, hfirst]
        simp only [cond_false, hsame]
      have hne : ∀ a ∈ (xs.filterMap g).eraseDups, a ≠ c := by
        intro a ha
        rw [List.mem_eraseDups, List.mem_filterMap] at ha
        obtain ⟨y, -, hy⟩ := ha
        simpa using (Option.filter_eq_some_iff.mp hy).2
      rw [List.filterMap_cons_some hx, List.eraseDups_cons, List.filter_filterMap,
        List.pairwise_cons]
      refine ⟨fun a ha => ?_, (ih g).imp_of_mem fun {a b} ha hb hlt => ?_⟩
      · rw [hlater a (hne a ha)]
        simp [List.findIdx_cons, hx]
      · rw [hlater a (hne a ha), hlater b (hne b hb)]
        omega

end SourceFacts.Lists
