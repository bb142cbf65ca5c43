import SourceFacts.Proofs.Imports.Dotted
import SourceFacts.SourceContext

/-!
# Imported paths and the modules that contain them

The expansion of a list of paths holds those paths and their parts before a dot, without what is
made of dots only (`mem_expand`).
-/

namespace SourceFacts.Imports

/-- A path stands in an import: it is what is imported, or the import goes on after it with a
dot. -/
def StandsIn (path imported : String) : Prop :=
  imported = path ∨ ∃ rest, imported = path ++ "." ++ rest

theorem standsIn_iff {path imported : String} : StandsIn path imported ↔
    imported.toList = path.toList ∨ ∃ rest, imported.toList = path.toList ++ '.' :: rest := by
  rw [StandsIn, String.toList_inj]
  refine or_congr_right ⟨?_, ?_⟩
  · rintro ⟨rest, hrest⟩
    exact ⟨rest.toList, eq_dotted_iff.mp hrest⟩
  · rintro ⟨rest, hrest⟩
    exact ⟨String.ofList rest, eq_dotted_iff.mpr (by rw [hrest, String.toList_ofList])⟩

theorem mem_dottedPrefixes {front path x : List Char} : x ∈ dottedPrefixes front path ↔
    front.reverse ++ path = x ∨ ∃ before rest, path = before ++ '.' :: rest ∧
      front.reverse ++ before = x := by
  induction path generalizing front with
  | nil => simp [dottedPrefixes, eq_comm]
  | cons c path ih =>
    have hmore : x ∈ dottedPrefixes (c :: front) path ↔ front.reverse ++ c :: path = x ∨
        ∃ before rest, path = before ++ '.' :: rest ∧ front.reverse ++ c :: before = x := by
      simpa using @ih (c :: front)
    -- A part that ends before a dot is empty, or it begins with the first character.
    have hsplit : (∃ before rest, c :: path = before ++ '.' :: rest ∧ front.reverse ++ before = x) ↔
        (c = '.' ∧ front.reverse = x) ∨
          ∃ before rest, path = before ++ '.' :: rest ∧ front.reverse ++ c :: before = x := by
      constructor
      · rintro ⟨before, rest, hpath, hx⟩
        cases before with
        | nil =>
          rw [List.nil_append, List.cons.injEq] at hpath
          exact Or.inl ⟨hpath.1, by simpa using hx⟩
        | cons d before =>
          rw [List.cons_append, List.cons.injEq] at hpath
          exact Or.inr ⟨before, rest, hpath.2, by rw [hpath.1, hx]⟩
      · rintro (⟨rfl, hx⟩ | ⟨before, rest, rfl, hx⟩)
        · exact ⟨[], path, rfl, by simpa using hx⟩
        · exact ⟨c :: before, rest, rfl, hx⟩
    rw [dottedPrefixes, hsplit]
    by_cases hdot : c = '.'
    · subst hdot
      rw [if_pos rfl, List.mem_cons, hmore, eq_comm (a := x)]
      simp only [true_and]
      exact or_left_comm
    · simp only [hdot, if_false, false_and, false_or]
      exact hmore

theorem mem_insertSorted {s x : String} {xs : List String} :
    x ∈ insertSorted s xs ↔ x = s ∨ x ∈ xs := by
  induction xs with
  | nil => simp [insertSorted]
  | cons t xs ih =>
    unfold insertSorted
    split
    · simp
    · split
      case isTrue heq => simp [heq]
      case isFalse =>
        rw [List.mem_cons, List.mem_cons, ih]
        exact or_left_comm

theorem mem_foldl_insertSorted {found : List (List Char)} {acc : List String} {x : String} :
    x ∈ found.foldl (fun acc p => insertSorted (String.ofList p) acc) acc ↔
      x.toList ∈ found ∨ x ∈ acc := by
  induction found generalizing acc with
  | nil => simp
  | cons p found ih =>
    have hp : x = String.ofList p ↔ x.toList = p := by
      rw [← String.toList_inj, String.toList_ofList]
    rw [List.foldl_cons, ih, mem_insertSorted, List.mem_cons, hp]
    exact or_left_comm.trans or_assoc.symm

/-- The expansion of paths holds what stands in one of them and is not made of dots only. -/
theorem mem_expand {paths : List String} {path : String} : path ∈ expand paths ↔
    isDotsOnly path.toList = false ∧ ∃ imported ∈ paths, StandsIn path imported := by
  have hprefix : ∀ imported : String, path.toList ∈ dottedPrefixes [] imported.toList ↔
      StandsIn path imported := by
    intro imported
    rw [mem_dottedPrefixes, standsIn_iff]
    simp only [List.reverse_nil, List.nil_append]
    refine or_congr_right ⟨?_, ?_⟩
    · rintro ⟨before, rest, hpath, rfl⟩
      exact ⟨rest, hpath⟩
    · rintro ⟨rest, hpath⟩
      exact ⟨_, rest, hpath, rfl⟩
  simp only [expand, mem_foldl_insertSorted, List.not_mem_nil, or_false, List.mem_filter,
    List.mem_flatMap, hprefix, Bool.not_eq_true']
  exact and_comm

end SourceFacts.Imports

namespace SourceFacts.SourceContext

theorem mem_expandedImports {c : SourceContext} {path : String} : path ∈ c.expandedImports ↔
    Imports.isDotsOnly path.toList = false ∧
      ∃ imported ∈ c.imports, Imports.StandsIn path imported :=
  Imports.mem_expand

end SourceFacts.SourceContext
