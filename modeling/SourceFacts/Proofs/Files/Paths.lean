import Mathlib.Data.List.Basic
import SourceFacts.Files.Path

/-!
# Paths made of names

A path that joins names splits into these names again (`Path.parts_foldl_join`), and its extension
is that of the last of them (`Path.extension?_foldl_join`). A name has no slash, so a slash stands
between two names and nowhere else.
-/

namespace SourceFacts.Path

/-- A text that can be the name of a file. -/
structure IsName (s : String) : Prop where
  ne_empty : s ≠ ""
  ne_dot : s ≠ "."
  ne_dots : s ≠ ".."
  slash_notMem : '/' ∉ s.toList

theorem isName_iff {s : String} :
    IsName s ↔ s ≠ "" ∧ s ≠ "." ∧ s ≠ ".." ∧ '/' ∉ s.toList := by
  constructor
  · rintro ⟨hempty, hdot, hdots, hslash⟩
    exact ⟨hempty, hdot, hdots, hslash⟩
  · rintro ⟨hempty, hdot, hdots, hslash⟩
    exact ⟨hempty, hdot, hdots, hslash⟩

instance (s : String) : Decidable (IsName s) := decidable_of_iff _ isName_iff.symm

/-! ## Splitting -/

theorem splitSlashes_slash (s : List Char) : splitSlashes ('/' :: s) = [] :: splitSlashes s := rfl

theorem splitSlashes_cons {c : Char} {s p : List Char} {rest : List (List Char)} (hc : c ≠ '/')
    (h : splitSlashes s = p :: rest) : splitSlashes (c :: s) = (c :: p) :: rest := by
  unfold splitSlashes at h ⊢
  rw [List.foldr_cons, if_neg hc, h]

theorem exists_splitSlashes_eq_cons (s : List Char) : ∃ p rest, splitSlashes s = p :: rest := by
  induction s with
  | nil => exact ⟨[], [], rfl⟩
  | cons c s ih =>
    obtain ⟨p, rest, hs⟩ := ih
    by_cases hc : c = '/'
    · subst hc
      exact ⟨[], splitSlashes s, rfl⟩
    · exact ⟨c :: p, rest, splitSlashes_cons hc hs⟩

/-- What stands before and behind a slash is split by itself. -/
theorem splitSlashes_append (s s' : List Char) :
    splitSlashes (s ++ '/' :: s') = splitSlashes s ++ splitSlashes s' := by
  induction s with
  | nil => rfl
  | cons c s ih =>
    obtain ⟨p, rest, hs⟩ := exists_splitSlashes_eq_cons s
    by_cases hc : c = '/'
    · subst hc
      rw [List.cons_append, splitSlashes_slash, splitSlashes_slash, ih, List.cons_append]
    · rw [hs, List.cons_append] at ih
      rw [List.cons_append, splitSlashes_cons hc ih, splitSlashes_cons hc hs, List.cons_append]

theorem splitSlashes_of_notMem {s : List Char} (h : '/' ∉ s) : splitSlashes s = [s] := by
  induction s with
  | nil => rfl
  | cons c s ih =>
    have hc : c ≠ '/' := (List.ne_of_not_mem_cons h).symm
    exact splitSlashes_cons hc (ih (List.not_mem_of_not_mem_cons h))

/-! ## Joining names -/

theorem not_isAbsolute {n : String} (h : IsName n) : isAbsolute n = false := by
  have hslash := h.slash_notMem
  unfold isAbsolute
  cases hn : n.toList with
  | nil => rfl
  | cons c s =>
    rw [hn] at hslash
    have hc : c ≠ '/' := (List.ne_of_not_mem_cons hslash).symm
    simpa using hc

theorem join_empty (n : String) : join "" n = n := by
  rw [join, if_pos (by simp)]

/-- A slash is put between a path that does not end with one and a name. -/
theorem toList_join {base n : String} (hn : IsName n) (hbase : base ≠ "")
    (hend : base.toList.getLast? ≠ some '/') :
    (join base n).toList = base.toList ++ '/' :: n.toList := by
  have hempty : ¬ (isAbsolute n || base.isEmpty) = true := by
    simp [not_isAbsolute hn, hbase]
  have hslash : ¬ (base.toList.getLast? == some '/') = true := by simpa using hend
  rw [join, if_neg hempty, if_neg hslash, String.toList_append, String.toList_append,
    List.append_assoc]
  rfl

theorem getLast?_ne_slash {n : String} (s : List Char) (hn : IsName n) :
    (s ++ n.toList).getLast? ≠ some '/' := by
  have hne : n.toList ≠ [] := fun h => hn.ne_empty (String.toList_eq_nil_iff.mp h)
  rw [List.getLast?_append_of_ne_nil s hne]
  intro h
  exact hn.slash_notMem (List.mem_of_getLast? h)

/-- Names that are joined to a path follow its parts. -/
theorem splitSlashes_foldl_join {base : String} (names : List String) (hbase : base ≠ "")
    (hend : base.toList.getLast? ≠ some '/') (hnames : ∀ n ∈ names, IsName n) :
    splitSlashes (names.foldl join base).toList =
      splitSlashes base.toList ++ names.map String.toList := by
  induction names generalizing base with
  | nil => rw [List.foldl_nil, List.map_nil, List.append_nil]
  | cons n names ih =>
    obtain ⟨hn, hrest⟩ := List.forall_mem_cons.mp hnames
    have hjoin := toList_join hn hbase hend
    have hne : join base n ≠ "" := by
      intro hempty
      rw [hempty] at hjoin
      exact absurd hjoin.symm (List.append_ne_nil_of_right_ne_nil _ (List.cons_ne_nil _ _))
    have hlast : (join base n).toList.getLast? ≠ some '/' := by
      rw [hjoin, List.append_cons]
      exact getLast?_ne_slash _ hn
    rw [List.foldl_cons, ih hne hlast hrest, hjoin, splitSlashes_append,
      splitSlashes_of_notMem hn.slash_notMem, List.append_assoc, List.map_cons, List.singleton_append]

/-- The parts of a path that is made of names are these names. -/
theorem parts_foldl_join {names : List String} (hnames : ∀ n ∈ names, IsName n) :
    parts (names.foldl join "") = names := by
  cases names with
  | nil => rfl
  | cons a rest =>
    obtain ⟨ha, hrest⟩ := List.forall_mem_cons.mp hnames
    have hraw : splitSlashes ((a :: rest).foldl join "").toList =
        (a :: rest).map String.toList := by
      rw [List.foldl_cons, join_empty,
        splitSlashes_foldl_join rest ha.ne_empty (getLast?_ne_slash [] ha) hrest,
        splitSlashes_of_notMem ha.slash_notMem]
      rfl
    have hkept : (rest.filter fun p => !p.isEmpty && p != ".") = rest := by
      refine List.filter_eq_self.mpr fun n hn => ?_
      have hname := hrest n hn
      simp [hname.ne_empty, hname.ne_dot]
    have hfirst : a.isEmpty = false := by simpa using ha.ne_empty
    have htexts : ((a :: rest).map String.toList).map String.ofList = a :: rest := by
      rw [List.map_map]
      exact (List.map_congr_left fun n _ => String.ofList_toList).trans (List.map_id _)
    simp only [parts, hraw, htexts, List.drop_one, List.tail_cons, List.head?_cons, hkept, hfirst]
    rfl

theorem extension?_foldl_join {names : List String} {n : String} (hnames : ∀ n ∈ names, IsName n)
    (hlast : names.getLast? = some n) :
    extension? (names.foldl join "") = nameExtension? n := by
  have hn : IsName n := hnames n (List.mem_of_getLast? hlast)
  have hname : name? (names.foldl join "") = some n := by
    rw [name?, parts_foldl_join hnames, hlast]
    simp [hn.ne_dot, hn.ne_dots]
  rw [extension?, hname]
  rfl

end SourceFacts.Path
