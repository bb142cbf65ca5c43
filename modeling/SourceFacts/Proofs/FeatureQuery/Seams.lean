import Mathlib.Data.List.Chain
import SourceFacts.Proofs.FeatureQuery.Predicates
import SourceFacts.Proofs.FeatureQuery.Reading

/-!
# Filled templates have no placeholders

Where a placeholder is taken out of a template, what stood on its two sides comes together. No
pair of opening braces comes about there: what stands before a placeholder does not end in a
brace, or else the placeholder would have begun there (`Text.FirstAt.not_before`), and a predicate
begins and ends with a parenthesis. Within a predicate a pair can only come from the regular
expression (`isChain_escape`).

So a filled template can be filled again, with anything, and stays as it is (`render_settled`).
-/

namespace SourceFacts.FeatureQuery

open Text (FirstAt)

variable {constructs : Option ConstructQuery} {s before more : List Char}

/-- Two characters that are not both opening braces. -/
def Unpaired (a b : Char) : Prop := a = '\x7b' → b ≠ '\x7b'

instance : DecidableRel Unpaired := fun a b =>
  inferInstanceAs (Decidable (a = '\x7b' → b ≠ '\x7b'))

theorem isChain_unpaired_iff : s.IsChain Unpaired ↔ ¬ opening <:+: s := by
  rw [List.isChain_iff_forall_rel_of_append_cons_cons]
  constructor
  · rintro h ⟨front, back, hs⟩
    exact h (by simpa [opening] using hs.symm) rfl rfl
  · rintro h a b front back hs rfl rfl
    exact h ⟨front, back, by simp [opening, hs]⟩

/-! ## Predicates -/

theorem eq_of_brace_mem_escapedChar {c : Char} (h : '\x7b' ∈ escapedChar c) : c = '\x7b' := by
  unfold escapedChar at h
  split at h <;> simp at h
  exact h.symm

theorem escapedChar_ne_nil (c : Char) : escapedChar c ≠ [] := by
  unfold escapedChar
  split <;> simp

theorem isChain_escapedChar (c : Char) : (escapedChar c).IsChain Unpaired := by
  rcases escapedChar_cases c with ⟨hc, -⟩ | ⟨d, hc⟩
  · rw [hc]
    exact .singleton c
  · rw [hc]
    exact .cons_cons (fun hslash => absurd hslash (by decide)) (.singleton d)

/-- Writing a regular expression makes no pairs of braces. -/
theorem isChain_escape {regex : String} (h : ¬ opening <:+: regex.toList) :
    (escape regex).toList.IsChain Unpaired := by
  have hne : [] ∉ regex.toList.map escapedChar := by
    rintro hmem
    obtain ⟨c, -, hc⟩ := List.mem_map.mp hmem
    exact escapedChar_ne_nil c hc
  rw [toList_escape, List.flatMap_def, List.isChain_flatten hne, List.isChain_map]
  refine ⟨fun cs hcs => ?_, (isChain_unpaired_iff.mpr h).imp fun a b hab x hx y hy => ?_⟩
  · obtain ⟨c, -, rfl⟩ := List.mem_map.mp hcs
    exact isChain_escapedChar c
  · rintro rfl rfl
    exact hab (eq_of_brace_mem_escapedChar (List.mem_of_getLast? hx))
      (eq_of_brace_mem_escapedChar (List.mem_of_mem_head? hy))

/-- No pair comes about where the first of two texts does not end in a brace. -/
theorem isChain_append_of_getLast? {rest : List Char} (hs : s.IsChain Unpaired)
    (hrest : rest.IsChain Unpaired) (hlast : s.getLast? ≠ some '\x7b') :
    (s ++ rest).IsChain Unpaired :=
  hs.append hrest fun _ hx _ _ hbrace => absurd (hbrace ▸ hx) hlast

theorem isChain_predicate {regex : String} (slot : Slot) (h : ¬ opening <:+: regex.toList) :
    (predicate slot.capture regex).toList.IsChain Unpaired := by
  have hfront : ("(#match? @" ++ slot.capture ++ " \"").toList.IsChain Unpaired ∧
      ("(#match? @" ++ slot.capture ++ " \"").toList.getLast? ≠ some '\x7b' := by
    cases slot <;> decide
  have hback : ((escape regex).toList ++ ['"', ')']).IsChain Unpaired :=
    (isChain_escape h).append (by decide) fun _ _ y hy _ => by
      rw [← Option.some.inj hy]
      decide
  have hsplit : (predicate slot.capture regex).toList =
      ("(#match? @" ++ slot.capture ++ " \"").toList ++ ((escape regex).toList ++ ['"', ')']) := by
    simp [predicate]
  rw [hsplit]
  exact isChain_append_of_getLast? hfront.1 hback hfront.2

theorem getLast?_predicate (slot : Slot) (regex : String) :
    (predicate slot.capture regex).toList.getLast? = some ')' := by
  rw [predicate, String.toList_append, List.getLast?_append_of_ne_nil _ (by decide)]
  rfl

/-! ## Templates -/

/-- What stands before a placeholder has no pairs of braces, and does not end in a brace. -/
theorem isChain_before (h : FirstAt opening s before more) :
    before.IsChain Unpaired ∧ before.getLast? ≠ some '\x7b' := by
  have hchain : (before ++ ['\x7b']).IsChain Unpaired :=
    isChain_unpaired_iff.mpr (h.not_before (by simp [opening]))
  obtain ⟨hbefore, -, hseam⟩ := List.isChain_append.mp hchain
  exact ⟨hbefore, fun hlast => hseam _ hlast _ rfl rfl rfl⟩

theorem isChain_placeholder {rest : List Char} (inside : List Char)
    (hregex : ∀ slot : Slot, ∀ regex, constructs.bind slot.regex? = some regex →
      ¬ opening <:+: regex.toList) (hrest : rest.IsChain Unpaired) :
    ((Part.placeholder inside).filled constructs ++ rest).IsChain Unpaired := by
  rw [Part.filled]
  split
  · rename_i slot _
    split
    · rename_i regex hslot
      refine isChain_append_of_getLast? (isChain_predicate slot (hregex slot regex hslot)) hrest ?_
      rw [getLast?_predicate]
      decide
    · exact hrest
  · exact hrest

theorem isChain_filled {parts : List Part} (h : IsReading s parts)
    (hregex : ∀ slot : Slot, ∀ regex, constructs.bind slot.regex? = some regex →
      ¬ opening <:+: regex.toList) :
    (parts.flatMap (Part.filled constructs)).IsChain Unpaired := by
  induction h with
  | literal hnone => simpa [Part.filled] using isChain_unpaired_iff.mpr hnone
  | unterminated hopen _ => simpa [Part.filled] using (isChain_before hopen).1
  | placeholder hopen _ _ ih =>
    obtain ⟨hbefore, hlast⟩ := isChain_before hopen
    exact isChain_append_of_getLast? hbefore (isChain_placeholder _ hregex ih) hlast

/-- **No placeholder is left in a filled template.** If none of the regular expressions has a pair
of opening braces, then what a template is filled to has none either, and it stays as it is when
it is filled again, with whatever regular expressions. -/
theorem render_settled {t : Template} {text filled : String}
    (h : render t text constructs = .ok filled)
    (hregex : ∀ slot : Slot, ∀ regex, constructs.bind slot.regex? = some regex →
      ¬ opening <:+: regex.toList) :
    ¬ opening <:+: filled.toList ∧
      ∀ t' constructs', render t' filled constructs' = .ok filled := by
  obtain ⟨parts, hparts⟩ := exists_isReading text.toList
  have hnone : ¬ opening <:+: filled.toList := by
    rw [(filled_of_render hparts h).2, ← isChain_unpaired_iff]
    exact isChain_filled hparts hregex
  refine ⟨hnone, fun t' constructs' => ?_⟩
  rw [render_of_isReading (.literal hnone)]
  simp [Part.fault?, Part.filled]

/-- Single braces stand on both sides of a placeholder, and in the regular expression. -/
theorem render_settled_braces :
    let constructs : ConstructQuery :=
      { method := some "^a\x7b2\x7d$", decoratorName := none, callee := none, superclass := none }
    let text := "(_) @method \x7b \x7b\x7b method_predicate\t\x7d\x7d\x7b\x7d\x7d"
    let filled := "(_) @method \x7b (#match? @method \"^a\x7b2\x7d$\")\x7b\x7d\x7d"
    render .callExpression text (some constructs) = .ok filled ∧
      (∀ slot : Slot, ∀ regex, (some constructs).bind slot.regex? = some regex →
        ¬ opening <:+: regex.toList) ∧
      ¬ opening <:+: filled.toList ∧
      ∀ t' constructs', render t' filled constructs' = .ok filled := by
  intro constructs text filled
  have hfilled : render .callExpression text (some constructs) = .ok filled := by decide +kernel
  have hregex : ∀ slot : Slot, ∀ regex, (some constructs).bind slot.regex? = some regex →
      ¬ opening <:+: regex.toList := by
    intro slot regex hslot
    cases slot <;> cases hslot
    decide
  exact ⟨hfilled, hregex, render_settled hfilled hregex⟩

end SourceFacts.FeatureQuery
