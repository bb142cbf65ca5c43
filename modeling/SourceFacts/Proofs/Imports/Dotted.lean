import SourceFacts.Imports
import Mathlib.Data.List.Basic

/-!
# Dotted prefixes

What follows a dotted prefix is what has to be appended to it after a dot
(`afterDottedPrefix?_eq_some_iff`). Two prefixes of one text that end at a dot or at the end of
the text are equal, or one goes on after the other with a dot (`dotted_total`).
-/

namespace SourceFacts

theorem Text.afterFront?_eq_some_iff {front whole rest : List Char} :
    Text.afterFront? front whole = some rest ↔ whole = front ++ rest := by
  induction front generalizing whole with
  | nil => simp [Text.afterFront?, eq_comm]
  | cons c front ih =>
    cases whole with
    | nil => simp [Text.afterFront?]
    | cons d whole =>
      by_cases hcd : c = d
      · simp [Text.afterFront?, hcd, ih]
      · simp [Text.afterFront?, hcd, Ne.symm hcd]

theorem eq_dotted_iff {path front rest : String} :
    path = front ++ "." ++ rest ↔ path.toList = front.toList ++ '.' :: rest.toList := by
  rw [← String.toList_inj]
  simp

theorem afterDottedPrefix?_eq_some_iff {path front rest : String} :
    afterDottedPrefix? path front = some rest ↔ rest ≠ "" ∧ path = front ++ "." ++ rest := by
  rw [eq_dotted_iff]
  unfold afterDottedPrefix?
  constructor
  · intro h
    split at h
    · rename_i c more hafter
      cases h
      refine ⟨fun hnil => ?_, ?_⟩
      · simp [← String.toList_inj] at hnil
      · rw [Text.afterFront?_eq_some_iff.mp hafter, String.toList_ofList]
    · cases h
  · rintro ⟨hne, hpath⟩
    rw [Text.afterFront?_eq_some_iff.mpr hpath]
    cases hrest : rest.toList with
    | nil => exact absurd (String.toList_inj.mp (by simp [hrest])) hne
    | cons c more =>
      rw [← String.ofList_toList (s := rest), hrest]
      rfl

/-- A dotted prefix of a text: all of it, or what stands before a dot and something more. -/
def IsDottedPrefix (front text : String) : Prop :=
  text = front ∨ ∃ rest, rest ≠ "" ∧ text = front ++ "." ++ rest

theorem dotted_total_of_append {a b x y : List Char} (h : a ++ x = b ++ y)
    (hx : x = [] ∨ ∃ r, x = '.' :: r) (hy : y = [] ∨ ∃ r, y = '.' :: r) :
    a = b ∨ (∃ r, b = a ++ '.' :: r) ∨ ∃ r, a = b ++ '.' :: r := by
  rcases List.append_eq_append_iff.mp h with ⟨c, hb, hxc⟩ | ⟨c, ha, hyc⟩
  · cases c with
    | nil => exact Or.inl (by simpa using hb.symm)
    | cons d c =>
      obtain ⟨r, hr⟩ := hx.resolve_left (by simp [hxc])
      rw [hr, List.cons_append, List.cons.injEq] at hxc
      exact Or.inr (Or.inl ⟨c, by rw [hb, hxc.1]⟩)
  · cases c with
    | nil => exact Or.inl (by simpa using ha)
    | cons d c =>
      obtain ⟨r, hr⟩ := hy.resolve_left (by simp [hyc])
      rw [hr, List.cons_append, List.cons.injEq] at hyc
      exact Or.inr (Or.inr ⟨c, by rw [ha, hyc.1]⟩)

theorem IsDottedPrefix.exists_append {front text : String} (h : IsDottedPrefix front text) :
    ∃ x, text.toList = front.toList ++ x ∧ (x = [] ∨ ∃ r, x = '.' :: r) := by
  rcases h with rfl | ⟨rest, -, htext⟩
  · exact ⟨[], by simp, Or.inl rfl⟩
  · exact ⟨'.' :: rest.toList, eq_dotted_iff.mp htext, Or.inr ⟨_, rfl⟩⟩

/-- Dotted prefixes of one text are comparable. -/
theorem dotted_total {a b text : String} (ha : IsDottedPrefix a text)
    (hb : IsDottedPrefix b text) :
    a = b ∨ (∃ rest, b = a ++ "." ++ rest) ∨ ∃ rest, a = b ++ "." ++ rest := by
  obtain ⟨x, htx, hx⟩ := ha.exists_append
  obtain ⟨y, hty, hy⟩ := hb.exists_append
  rcases dotted_total_of_append (htx.symm.trans hty) hx hy with heq | ⟨r, hr⟩ | ⟨r, hr⟩
  · exact Or.inl (String.toList_inj.mp heq)
  · exact Or.inr (Or.inl ⟨String.ofList r, eq_dotted_iff.mpr (by simpa using hr)⟩)
  · exact Or.inr (Or.inr ⟨String.ofList r, eq_dotted_iff.mpr (by simpa using hr)⟩)

end SourceFacts
