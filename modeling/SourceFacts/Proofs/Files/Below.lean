import SourceFacts.Files.Tree

/-!
# Files below a directory

The files that are listed for a directory are those at the end of some way down from it
(`mem_filesIn`), where a way goes through entries that a test keeps. A path is listed for each way,
so that the files can be found with their ways first (`filesIn_eq_map`, `mem_waysIn`).
-/

namespace SourceFacts.FileTree

/-- What stands at the end of a way down from some entries, through entries that a test keeps. -/
inductive Below (keep : String → FileTree → Bool) :
    List (String × FileTree) → List String → FileTree → Prop where
  | entry {entries : List (String × FileTree)} {name : String} {t : FileTree}
      (hentry : (name, t) ∈ entries) (hkeep : keep name t = true) : Below keep entries [name] t
  | inside {entries inner : List (String × FileTree)} {name : String} {names : List String}
      {t : FileTree} (hentry : (name, directory inner) ∈ entries)
      (hkeep : keep name (directory inner) = true) (hinner : Below keep inner names t) :
      Below keep entries (name :: names) t

variable {keep : String → FileTree → Bool} {p : String} {content : ByteArray}

theorem below_cons_iff {name : String} {t target : FileTree} {rest : List (String × FileTree)}
    {names : List String} :
    Below keep ((name, t) :: rest) names target ↔
      (keep name t = true ∧ (names = [name] ∧ t = target ∨
        ∃ inner more, t = directory inner ∧ names = name :: more ∧ Below keep inner more target)) ∨
      Below keep rest names target := by
  constructor
  · intro h
    cases h with
    | entry hentry hkeep =>
      rcases List.mem_cons.mp hentry with heq | hrest
      · cases heq
        exact Or.inl ⟨hkeep, Or.inl ⟨rfl, rfl⟩⟩
      · exact Or.inr (.entry hrest hkeep)
    | inside hentry hkeep hinner =>
      rcases List.mem_cons.mp hentry with heq | hrest
      · cases heq
        exact Or.inl ⟨hkeep, Or.inr ⟨_, _, rfl, rfl, hinner⟩⟩
      · exact Or.inr (.inside hrest hkeep hinner)
  · rintro (⟨hkeep, ⟨rfl, rfl⟩ | ⟨inner, more, rfl, rfl, hinner⟩⟩ | hrest)
    · exact .entry List.mem_cons_self hkeep
    · exact .inside List.mem_cons_self hkeep hinner
    · cases hrest with
      | entry hentry hkeep => exact .entry (List.mem_cons_of_mem _ hentry) hkeep
      | inside hentry hkeep hinner => exact .inside (List.mem_cons_of_mem _ hentry) hkeep hinner

/-! ## Ways -/

mutual

/-- The files of a tree with the ways to them, through entries that a test keeps. -/
def waysAt (keep : String → FileTree → Bool) : FileTree → List (List String × ByteArray)
  | .file content => [([], content)]
  | .directory entries => waysIn keep entries
  | .other => []

/-- The files among the entries of a directory, with the ways to them. -/
def waysIn (keep : String → FileTree → Bool) :
    List (String × FileTree) → List (List String × ByteArray)
  | [] => []
  | (name, t) :: rest =>
    if keep name t then
      (waysAt keep t).map (fun (way, content) => (name :: way, content)) ++ waysIn keep rest
    else waysIn keep rest

end

mutual

theorem filesAt_eq_map (keep : String → FileTree → Bool) (path : String) : ∀ t : FileTree,
    filesAt keep path t = (waysAt keep t).map fun (way, content) =>
      (way.foldl Path.join path, content)
  | file content => by
    rw [filesAt, waysAt]
    rfl
  | directory entries => by
    rw [filesAt, waysAt]
    exact filesIn_eq_map keep path entries
  | other => by rw [filesAt, waysAt, List.map_nil]

theorem filesIn_eq_map (keep : String → FileTree → Bool) (path : String) :
    ∀ entries : List (String × FileTree),
      filesIn keep path entries = (waysIn keep entries).map fun (way, content) =>
        (way.foldl Path.join path, content)
  | [] => by rw [filesIn, waysIn, List.map_nil]
  | (name, t) :: rest => by
    have hrest := filesIn_eq_map keep path rest
    rw [filesIn, waysIn]
    by_cases hkeep : keep name t = true
    · rw [if_pos hkeep, if_pos hkeep, filesAt_eq_map keep (Path.join path name) t, hrest,
        List.map_append, List.map_map]
      rfl
    · rw [if_neg hkeep, if_neg hkeep, hrest]

end

mutual

/-- The files of a tree are the tree itself, or stand below it. -/
theorem mem_waysAt {way : List String} {content : ByteArray} : ∀ t : FileTree,
    (way, content) ∈ waysAt keep t ↔ (t = file content ∧ way = []) ∨
      ∃ entries, t = directory entries ∧ Below keep entries way (file content)
  | file bytes => by simp [waysAt, eq_comm, and_comm]
  | directory entries => by
    rw [waysAt, mem_waysIn entries]
    simp
  | other => by simp [waysAt]

theorem mem_waysIn {way : List String} {content : ByteArray} :
    ∀ entries : List (String × FileTree),
      (way, content) ∈ waysIn keep entries ↔ Below keep entries way (file content)
  | [] => by
    rw [waysIn]
    refine iff_of_false List.not_mem_nil ?_
    rintro (⟨hentry, -⟩ | ⟨hentry, -, -⟩) <;> cases hentry
  | (name, t) :: rest => by
    rw [below_cons_iff, waysIn]
    by_cases hkeep : keep name t = true
    · have hfirst : (way, content) ∈ (waysAt keep t).map (fun (way, content) =>
          (name :: way, content)) ↔ way = [name] ∧ t = file content ∨
            ∃ inner more, t = directory inner ∧ way = name :: more ∧
              Below keep inner more (file content) := by
        simp only [List.mem_map, Prod.exists, mem_waysAt t, Prod.mk.injEq]
        constructor
        · rintro ⟨more, bytes, ⟨rfl, rfl⟩ | ⟨inner, rfl, hinner⟩, rfl, rfl⟩
          · exact Or.inl ⟨rfl, rfl⟩
          · exact Or.inr ⟨inner, more, rfl, rfl, hinner⟩
        · rintro (⟨rfl, rfl⟩ | ⟨inner, more, rfl, rfl, hinner⟩)
          · exact ⟨[], content, Or.inl ⟨rfl, rfl⟩, rfl, rfl⟩
          · exact ⟨more, content, Or.inr ⟨inner, rfl, hinner⟩, rfl, rfl⟩
      rw [if_pos hkeep, List.mem_append, mem_waysIn rest, hfirst, and_iff_right hkeep]
    · rw [if_neg hkeep, mem_waysIn rest, or_iff_right fun h => hkeep h.1]

end

/-- The files among entries are those at the end of some way down. -/
theorem mem_filesIn (path : String) (entries : List (String × FileTree)) :
    (p, content) ∈ filesIn keep path entries ↔
      ∃ names, Below keep entries names (file content) ∧ p = names.foldl Path.join path := by
  rw [filesIn_eq_map, List.mem_map]
  constructor
  · rintro ⟨⟨way, bytes⟩, hway, heq⟩
    obtain ⟨rfl, rfl⟩ := Prod.mk.inj heq
    exact ⟨way, (mem_waysIn entries).mp hway, rfl⟩
  · rintro ⟨way, hway, rfl⟩
    exact ⟨(way, content), (mem_waysIn entries).mpr hway, rfl⟩

end SourceFacts.FileTree
