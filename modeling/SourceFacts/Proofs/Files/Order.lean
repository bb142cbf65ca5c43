import SourceFacts.Proofs.Files.Below
import SourceFacts.Proofs.Lists
import SourceFacts.Proofs.Tables

/-!
# File trees in order

Where the entries of each directory stand in order of their names, the ways to the files are in
lexicographic order (`FileTree.pairwise_waysAt`). Every tree can be put in order
(`FileTree.ordered_inOrder`), after which the same stands at the end of each way
(`FileTree.at?_inOrder`).
-/

namespace SourceFacts.FileTree

variable {t u : FileTree} {entries : List (String × FileTree)} {name : String} {way : List String}

/-! ## What is at the end of a way -/

/-- What is at the end of a way. -/
def at? : FileTree → List String → Option FileTree
  | t, [] => some t
  | t, name :: way => (t.entry? name).bind (·.at? way)

theorem at?_cons_eq_some_iff : t.at? (name :: way) = some u ↔
    ∃ inner, t.entry? name = some inner ∧ inner.at? way = some u :=
  Option.bind_eq_some_iff

theorem at?_cons_of_no_directory (h : ∀ entries, t ≠ directory entries) :
    t.at? (name :: way) = none := by
  cases t with
  | file content => rfl
  | directory entries => exact absurd rfl (h entries)
  | other => rfl

mutual

/-- All names in a tree. -/
def names : FileTree → List String
  | .directory entries => namesIn entries
  | _ => []

/-- All names among some entries. -/
def namesIn : List (String × FileTree) → List String
  | [] => []
  | (name, t) :: rest => name :: t.names ++ namesIn rest

end

theorem mem_namesIn {e : String × FileTree} (he : e ∈ entries) :
    e.1 ∈ namesIn entries ∧ ∀ name ∈ e.2.names, name ∈ namesIn entries := by
  induction entries with
  | nil => cases he
  | cons first rest ih =>
    obtain ⟨k, v⟩ := first
    rw [namesIn]
    rcases List.mem_cons.mp he with rfl | hrest
    · refine ⟨List.mem_append_left _ List.mem_cons_self, fun name hname => ?_⟩
      exact List.mem_append_left _ (List.mem_cons_of_mem _ hname)
    · obtain ⟨hname, hnames⟩ := ih hrest
      refine ⟨List.mem_append_right _ hname, fun name h => ?_⟩
      exact List.mem_append_right _ (hnames name h)

theorem entry?_directory (entries : List (String × FileTree)) (name : String) :
    entry? (directory entries) name = (entries.find? (·.1 == name)).map (·.2) := rfl

theorem mem_of_entry?_eq_some (h : entry? (directory entries) name = some t) :
    (name, t) ∈ entries := by
  obtain ⟨⟨k, v⟩, hfound, rfl⟩ := Option.map_eq_some_iff.mp h
  have hkey : k = name := by simpa using List.find?_some hfound
  exact hkey ▸ List.mem_of_find?_eq_some hfound

theorem mem_names_of_at? (h : t.at? way = some u) : ∀ name ∈ way, name ∈ t.names := by
  induction way generalizing t with
  | nil => exact List.forall_mem_nil _
  | cons name way ih =>
    obtain ⟨inner, hentry, hinner⟩ := at?_cons_eq_some_iff.mp h
    cases t with
    | file content => cases hentry
    | other => cases hentry
    | directory entries =>
      obtain ⟨hname, hnames⟩ := mem_namesIn (mem_of_entry?_eq_some hentry)
      rw [names]
      exact List.forall_mem_cons.mpr ⟨hname, fun n hn => hnames n (ih hinner n hn)⟩

/-! ## Order -/

/-- The entries of each directory stand in order of their names, no two of which are the same. -/
inductive Ordered : FileTree → Prop where
  | file (content : ByteArray) : Ordered (.file content)
  | directory {entries : List (String × FileTree)}
      (names : entries.Pairwise fun a b => a.1 < b.1) (trees : ∀ e ∈ entries, Ordered e.2) :
      Ordered (.directory entries)
  | other : Ordered .other

theorem Ordered.of_mem (h : Ordered (.directory entries)) (ht : (name, t) ∈ entries) :
    t.Ordered := by
  cases h with
  | directory _ htrees => exact htrees _ ht

theorem entry?_eq_some_iff (h : (directory entries).Ordered) :
    entry? (directory entries) name = some t ↔ (name, t) ∈ entries := by
  refine ⟨mem_of_entry?_eq_some, fun hmem => ?_⟩
  cases h with
  | directory hnames _ =>
    have hkeys : (entries.map Prod.fst).Nodup :=
      List.pairwise_map.mpr (hnames.imp fun hlt => ne_of_lt hlt)
    rw [entry?_directory, Lists.find?_of_mem hkeys hmem]
    rfl

mutual

theorem ordered_inOrder : ∀ t : FileTree, t.inOrder.Ordered
  | file content => by
    rw [inOrder]
    · exact .file content
    · exact nofun
  | directory entries => by
    rw [inOrder]
    exact .directory (ordered_allInOrder entries).1 (ordered_allInOrder entries).2
  | other => by
    rw [inOrder]
    · exact .other
    · exact nofun

theorem ordered_allInOrder : ∀ entries : List (String × FileTree),
    (allInOrder entries).Pairwise (fun a b => a.1 < b.1) ∧ ∀ e ∈ allInOrder entries, e.2.Ordered
  | [] => by
    rw [allInOrder]
    exact ⟨List.Pairwise.nil, List.forall_mem_nil _⟩
  | (name, t) :: rest => by
    obtain ⟨hnames, htrees⟩ := ordered_allInOrder rest
    rw [allInOrder]
    refine ⟨Table.pairwise_setIn hnames, fun e he => ?_⟩
    rcases Table.mem_setIn he with rfl | hrest
    · exact ordered_inOrder t
    · exact htrees e hrest

end

theorem entry?_inOrder (t : FileTree) (name : String) :
    t.inOrder.entry? name = (t.entry? name).map inOrder := by
  cases t with
  | file content => rfl
  | other => rfl
  | directory entries =>
    rw [inOrder, entry?_directory, entry?_directory]
    induction entries with
    | nil => rfl
    | cons first rest ih =>
      obtain ⟨k, v⟩ := first
      rw [allInOrder, Table.find?_setIn, ih]
      by_cases hk : name = k
      · subst hk
        simp
      · rw [if_neg hk, List.find?_cons_of_neg (by simpa using Ne.symm hk)]

/-- In order, what stands at the end of a way is still there, in order itself. -/
theorem at?_inOrder (t : FileTree) (way : List String) :
    t.inOrder.at? way = (t.at? way).map inOrder := by
  induction way generalizing t with
  | nil => rfl
  | cons name way ih =>
    rw [at?, at?, entry?_inOrder, Option.bind_map, Option.map_bind]
    exact congrArg _ (funext fun inner => ih inner)

theorem inOrder_eq_file_iff {content : ByteArray} :
    t.inOrder = file content ↔ t = file content := by
  cases t <;> simp [inOrder]

/-! ## The order of ways -/

theorem exists_entry_of_mem_waysIn {keep : String → FileTree → Bool} {content : ByteArray}
    (h : (way, content) ∈ waysIn keep entries) : ∃ e ∈ entries, ∃ more, way = e.1 :: more := by
  have hbelow := (mem_waysIn entries).mp h
  cases hbelow with
  | entry hentry _ => exact ⟨_, hentry, [], rfl⟩
  | inside hentry _ _ => exact ⟨_, hentry, _, rfl⟩

mutual

/-- The ways to the files of a tree that is in order are in order. -/
theorem pairwise_waysAt (keep : String → FileTree → Bool) : ∀ t : FileTree, t.Ordered →
    (waysAt keep t).Pairwise fun a b => a.1 < b.1
  | file content, _ => by
    rw [waysAt]
    exact List.pairwise_singleton _ _
  | directory entries, h => by
    rw [waysAt]
    cases h with
    | directory hnames htrees => exact pairwise_waysIn keep entries hnames htrees
  | other, _ => by
    rw [waysAt]
    exact List.Pairwise.nil

theorem pairwise_waysIn (keep : String → FileTree → Bool) : ∀ entries : List (String × FileTree),
    entries.Pairwise (fun a b => a.1 < b.1) → (∀ e ∈ entries, e.2.Ordered) →
      (waysIn keep entries).Pairwise fun a b => a.1 < b.1
  | [], _, _ => by
    rw [waysIn]
    exact List.Pairwise.nil
  | (name, t) :: rest, hnames, htrees => by
    obtain ⟨hfirst, hrest⟩ := List.pairwise_cons.mp hnames
    obtain ⟨ht, htrees⟩ := List.forall_mem_cons.mp htrees
    have hlater := pairwise_waysIn keep rest hrest htrees
    rw [waysIn]
    split
    case isFalse => exact hlater
    case isTrue =>
      refine List.pairwise_append.mpr ⟨?_, hlater, ?_⟩
      · refine List.pairwise_map.mpr ((pairwise_waysAt keep t ht).imp fun hlt => ?_)
        exact List.cons_lt_cons_iff.mpr (Or.inr ⟨rfl, hlt⟩)
      · -- A way into a later entry begins with a greater name.
        intro a ha b hb
        obtain ⟨c, -, rfl⟩ := List.mem_map.mp ha
        obtain ⟨e, he, more, hmore⟩ := exists_entry_of_mem_waysIn hb
        rw [hmore]
        exact List.cons_lt_cons_iff.mpr (Or.inl (hfirst e he))

end

end SourceFacts.FileTree
