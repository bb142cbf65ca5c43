import Mathlib.Data.List.Infix
import SourceFacts.Text.Part

/-!
# The first place of a text in another

A text that stands in another one has a first place there, which splits the other text in one way
only (`FirstAt`, `FirstAt.unique`, `firstAt_or_absent`). It goes on from character to character
(`FirstAt.cons`, `FirstAt.of_cons`), which is how readers find it.
-/

namespace SourceFacts.Text

variable {separator text before before' after after' : List Char} {c d : Char}

/-- A separator stands between two parts of a text, and at no place before that. -/
structure FirstAt (separator text before after : List Char) : Prop where
  split : text = before ++ (separator ++ after)
  first : ∀ front back, text = front ++ (separator ++ back) → before.length ≤ front.length

namespace FirstAt

theorem unique (h : FirstAt separator text before after)
    (h' : FirstAt separator text before' after') : before = before' ∧ after = after' := by
  have hlength : before.length = before'.length :=
    Nat.le_antisymm (h.first _ _ h'.split) (h'.first _ _ h.split)
  obtain ⟨hbefore, hrest⟩ := List.append_inj (h.split.symm.trans h'.split) hlength
  exact ⟨hbefore, List.append_cancel_left hrest⟩

theorem stands (h : FirstAt separator text before after) : separator <:+: text :=
  ⟨before, after, by rw [h.split, List.append_assoc]⟩

theorem front (separator after : List Char) :
    FirstAt separator (separator ++ after) [] after :=
  ⟨rfl, fun _ _ _ => Nat.zero_le _⟩

theorem cons (hc : ¬ separator <+: c :: text) (h : FirstAt separator text before after) :
    FirstAt separator (c :: text) (c :: before) after := by
  refine ⟨by rw [h.split, List.cons_append], fun front back hsplit => ?_⟩
  cases front with
  | nil => exact absurd ⟨back, hsplit.symm⟩ hc
  | cons a front => exact Nat.succ_le_succ (h.first front back (List.cons.inj hsplit).2)

theorem of_cons (h : FirstAt separator (c :: text) (d :: before) after) :
    c = d ∧ ¬ separator <+: c :: text ∧ FirstAt separator text before after := by
  obtain ⟨rfl, hrest⟩ := List.cons.inj h.split
  refine ⟨rfl, ?_, hrest, fun front back hsplit => ?_⟩
  · rintro ⟨back, hback⟩
    exact absurd (h.first [] back hback.symm) (Nat.not_succ_le_zero _)
  · exact Nat.le_of_succ_le_succ (h.first (c :: front) back (congrArg (c :: ·) hsplit))

theorem of_notMem (h : c ∉ before) (separator after : List Char) :
    FirstAt (c :: separator) (before ++ (c :: separator ++ after)) before after := by
  induction before with
  | nil => exact .front (c :: separator) after
  | cons d before ih =>
    refine (ih (List.not_mem_of_not_mem_cons h)).cons ?_
    rintro ⟨back, hback⟩
    exact h ((List.cons.inj hback).1 ▸ List.mem_cons_self)

/-- Before its first place a separator does not stand, not even with its own beginning. -/
theorem not_before (h : FirstAt separator text before after) (hne : separator ≠ []) :
    ¬ separator <:+: before ++ separator.dropLast := by
  rintro ⟨front, back, hstands⟩
  obtain ⟨last, hlast⟩ : ∃ last, separator = separator.dropLast ++ [last] :=
    ⟨_, (List.dropLast_concat_getLast hne).symm⟩
  have hsplit : text = front ++ (separator ++ (back ++ last :: after)) := by
    calc text = before ++ ((separator.dropLast ++ [last]) ++ after) := by rw [← hlast, h.split]
      _ = (before ++ separator.dropLast) ++ last :: after := by simp
      _ = front ++ (separator ++ (back ++ last :: after)) := by rw [← hstands]; simp
  have hfirst := h.first front _ hsplit
  have hlengths := congrArg List.length hstands
  have hlong := congrArg List.length hlast
  simp only [List.length_append, List.length_singleton] at hlengths hlong
  omega

end FirstAt

theorem firstAt_or_absent (separator text : List Char) :
    (∃ before after, FirstAt separator text before after) ∨ ¬ separator <:+: text := by
  induction text with
  | nil =>
    cases separator with
    | nil => exact Or.inl ⟨[], [], .front [] []⟩
    | cons a separator => exact Or.inr (by simp)
  | cons c text ih =>
    by_cases hc : separator <+: c :: text
    · obtain ⟨after, hafter⟩ := hc
      exact Or.inl ⟨[], after, hafter ▸ .front separator after⟩
    · rcases ih with ⟨before, after, h⟩ | hnone
      · exact Or.inl ⟨c :: before, after, h.cons hc⟩
      · refine Or.inr fun hstands => ?_
        exact (List.infix_cons_iff.mp hstands).elim hc hnone

theorem isSome_splitAt?_iff : (splitAt? separator text).isSome ↔ separator <:+: text := by
  induction text with
  | nil =>
    unfold splitAt?
    cases separator <;> simp
  | cons c text ih =>
    rw [splitAt?, List.infix_cons_iff, ← List.isPrefixOf_iff_prefix, ← ih]
    split
    · rename_i hfront
      simp [hfront]
    · rename_i hfront
      simp [hfront]

theorem occursIn_iff {part whole : String} :
    occursIn part whole = true ↔ part.toList <:+: whole.toList :=
  isSome_splitAt?_iff

end SourceFacts.Text
