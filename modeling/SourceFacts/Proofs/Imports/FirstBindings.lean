import Mathlib.Data.List.Induction
import SourceFacts.Proofs.Imports.Statements
import SourceFacts.Proofs.Lists

/-!
# First bindings

A file may import a path again and again, with and without a local name. As an imported path it
counts where it is imported first; its local name is the one of its first import that has one,
whatever stands before it. Both lists are told by the import statements in source order
(`SourceContext.ofTree_firstBindings`).
-/

namespace SourceFacts

/-- Whether a path is imported by a binding. -/
def ImportBinding.imports (path : String) (b : ImportBinding) : Bool := b.path == path

/-- Whether a path is imported by a binding under a local name. -/
def ImportBinding.names (path : String) (b : ImportBinding) : Bool :=
  b.path == path && b.localName.isSome

/-! ## One name for each path -/

namespace ImportAliases

/-- After a binding a path is found as it would be with the pair behind the others. -/
theorem find?_insert (m : ImportAliases) (pair : String × String) (path : String) :
    (m.insert pair.1 pair.2).entries.find? (·.1 == path) =
      (m.entries ++ [pair]).find? (·.1 == path) := by
  unfold insert
  split
  case isTrue hbound =>
    rw [List.find?_append]
    by_cases hpath : pair.1 = path
    · subst hpath
      rw [get?, Option.isSome_map] at hbound
      exact (Option.or_of_isSome hbound).symm
    · rw [List.find?_singleton, if_neg (by simpa using hpath), Option.or_none]
  case isFalse => rfl

theorem keys_insert (m : ImportAliases) (pair : String × String) :
    (m.insert pair.1 pair.2).entries.map Prod.fst =
      m.entries.map Prod.fst ++ if pair.1 ∈ m.entries.map Prod.fst then [] else [pair.1] := by
  have hbound : (m.get? pair.1).isSome ↔ pair.1 ∈ m.entries.map Prod.fst := by
    simp [get?, List.find?_isSome]
  simp only [insert, hbound]
  split <;> simp

theorem ofPairs_concat (pairs : List (String × String)) (pair : String × String) :
    ofPairs (pairs ++ [pair]) = (ofPairs pairs).insert pair.1 pair.2 := by
  rw [ofPairs, List.foldl_append]
  rfl

theorem find?_ofPairs (pairs : List (String × String)) (path : String) :
    (ofPairs pairs).entries.find? (·.1 == path) = pairs.find? (·.1 == path) := by
  induction pairs using List.reverseRecOn with
  | nil => rfl
  | append_singleton pairs pair ih =>
    rw [ofPairs_concat, find?_insert, List.find?_append, List.find?_append, ih]

/-- The paths of bound names are those of the pairs, each once. -/
theorem keys_ofPairs (pairs : List (String × String)) :
    (ofPairs pairs).entries.map Prod.fst = (pairs.map Prod.fst).eraseDups := by
  induction pairs using List.reverseRecOn with
  | nil => rfl
  | append_singleton pairs pair ih =>
    rw [ofPairs_concat, keys_insert, ih, List.map_append, List.map_singleton,
      Lists.eraseDups_concat]
    simp only [List.mem_eraseDups]

theorem nodup_keys_ofPairs (pairs : List (String × String)) :
    ((ofPairs pairs).entries.map Prod.fst).Nodup :=
  keys_ofPairs pairs ▸ Lists.nodup_eraseDups _

theorem mem_entries_ofPairs {pairs : List (String × String)} {entry : String × String} :
    entry ∈ (ofPairs pairs).entries ↔ pairs.find? (·.1 == entry.1) = some entry := by
  rw [← find?_ofPairs]
  exact ⟨Lists.find?_of_mem (nodup_keys_ofPairs pairs), List.mem_of_find?_eq_some⟩

end ImportAliases

/-! ## What import statements bind -/

namespace Imports

variable {found : List ImportBinding} {b : ImportBinding} {path name : String}

/-- The path that a binding imports, if it is one. -/
def importedPath? (b : ImportBinding) : Option String := if b.path = "" then none else some b.path

/-- The path that a binding names, with the name, if it names one. -/
def namedPath? (b : ImportBinding) : Option (String × String) :=
  if b.path = "" then none else b.localName.map (b.path, ·)

theorem importedPath?_beq (hpath : path ≠ "") :
    (importedPath? b == some path) = b.imports path := by
  unfold importedPath? ImportBinding.imports
  by_cases hb : b.path = ""
  · simp [hb, Ne.symm hpath]
  · simp [hb]

theorem fst_namedPath?_beq (hpath : path ≠ "") :
    ((namedPath? b).map Prod.fst == some path) = b.names path := by
  unfold namedPath? ImportBinding.names
  by_cases hb : b.path = ""
  · simp [hb, Ne.symm hpath]
  · cases b.localName <;> simp [hb]

theorem namedPath?_eq_some_iff :
    namedPath? b = some (path, name) ↔ path ≠ "" ∧ b = ⟨path, some name⟩ := by
  obtain ⟨p, n⟩ := b
  simp only [namedPath?, Option.ite_none_left_eq_some, Option.map_eq_some_iff, Prod.mk.injEq,
    ImportBinding.mk.injEq]
  constructor
  · rintro ⟨hne, _, hn, rfl, rfl⟩
    exact ⟨hne, rfl, hn⟩
  · rintro ⟨hne, rfl, hn⟩
    exact ⟨hne, name, hn, rfl, rfl⟩

/-- Imported paths, each once, in order of their first import. -/
def paths (found : List ImportBinding) : List String :=
  ((found.map (·.path)).filter (!·.isEmpty)).eraseDups

/-- The local names of imports. -/
def aliases (found : List ImportBinding) : ImportAliases :=
  .ofPairs ((found.filter fun b => !b.path.isEmpty).filterMap fun b => b.localName.map (b.path, ·))

theorem paths_eq (found : List ImportBinding) :
    paths found = (found.filterMap importedPath?).eraseDups := by
  have hsame : (found.map (·.path)).filter (!·.isEmpty) = found.filterMap importedPath? := by
    rw [← List.filterMap_eq_filter, List.filterMap_map]
    refine List.filterMap_congr fun b _ => ?_
    by_cases hb : b.path = "" <;> simp [importedPath?, Option.guard, hb]
  rw [paths, hsame]

theorem aliases_eq (found : List ImportBinding) :
    aliases found = .ofPairs (found.filterMap namedPath?) := by
  have hsame : (found.filter fun b => !b.path.isEmpty).filterMap (fun b =>
      b.localName.map (b.path, ·)) = found.filterMap namedPath? := by
    rw [List.filterMap_filter]
    refine List.filterMap_congr fun b _ => ?_
    by_cases hb : b.path = "" <;> simp [namedPath?, hb]
  rw [aliases, hsame]

theorem paths_concat (found : List ImportBinding) (hb : b.path ≠ "") :
    paths (found ++ [b]) =
      if b.path ∈ paths found then paths found else paths found ++ [b.path] := by
  have hlast : [b].filterMap importedPath? = [b.path] := by simp [importedPath?, hb]
  rw [paths_eq, List.filterMap_append, hlast, Lists.eraseDups_concat, paths_eq found]
  simp only [List.mem_eraseDups]
  split
  · rw [List.append_nil]
  · rfl

theorem aliases_concat (found : List ImportBinding) (hb : b.path ≠ "") :
    aliases (found ++ [b]) =
      match b.localName with
      | some name => (aliases found).insert b.path name
      | none => aliases found := by
  rw [aliases_eq, List.filterMap_append, aliases_eq found]
  cases hname : b.localName with
  | none =>
    have hlast : [b].filterMap namedPath? = [] := by simp [namedPath?, hb, hname]
    rw [hlast, List.append_nil]
  | some name =>
    have hlast : [b].filterMap namedPath? = [(b.path, name)] := by simp [namedPath?, hb, hname]
    rw [hlast, ImportAliases.ofPairs_concat]

/-- Recording bindings leaves their paths and their local names. -/
theorem foldl_add (found : List ImportBinding) :
    found.foldl Recorded.add .empty = ⟨paths found, aliases found⟩ := by
  induction found using List.reverseRecOn with
  | nil => rfl
  | append_singleton found b ih =>
    rw [List.foldl_append, ih, List.foldl_cons, List.foldl_nil, Recorded.add]
    by_cases hb : b.path = ""
    · simp [hb, paths, aliases]
    · rw [paths_concat found hb, aliases_concat found hb, if_neg (by simpa using hb)]
      exact congrArg₂ Recorded.mk (if_congr List.contains_iff_mem rfl rfl) rfl

theorem mem_paths : path ∈ paths found ↔ path ≠ "" ∧ ∃ b ∈ found, b.path = path := by
  rw [paths_eq, List.mem_eraseDups, List.mem_filterMap]
  simp only [importedPath?, Option.ite_none_left_eq_some, Option.some.injEq]
  constructor
  · rintro ⟨b, hb, hne, rfl⟩
    exact ⟨hne, b, hb, rfl⟩
  · rintro ⟨hne, b, hb, rfl⟩
    exact ⟨b, hb, hne, rfl⟩

/-- Imported paths stand in the order of their first imports. -/
theorem pairwise_paths (found : List ImportBinding) : (paths found).Pairwise fun p q =>
    found.findIdx (·.imports p) < found.findIdx (·.imports q) := by
  have hne : ∀ p ∈ paths found, p ≠ "" := fun p hp => (mem_paths.mp hp).1
  have hplaces := Lists.pairwise_findIdx_eraseDups importedPath? found
  rw [← paths_eq] at hplaces
  refine hplaces.imp_of_mem fun {p q} hp hq hlt => ?_
  simpa only [importedPath?_beq (hne p hp), importedPath?_beq (hne q hq)] using hlt

theorem keys_aliases (found : List ImportBinding) : (aliases found).entries.map Prod.fst =
    (found.filterMap fun b => (namedPath? b).map Prod.fst).eraseDups := by
  rw [aliases_eq, ImportAliases.keys_ofPairs, List.map_filterMap]

theorem nodup_keys_aliases (found : List ImportBinding) :
    ((aliases found).entries.map Prod.fst).Nodup :=
  keys_aliases found ▸ Lists.nodup_eraseDups _

/-- The local name of a path is that of its first import that has one. -/
theorem mem_aliases : (path, name) ∈ (aliases found).entries ↔
    path ≠ "" ∧ found.find? (·.names path) = some ⟨path, some name⟩ := by
  have hnames : path ≠ "" →
      (fun b => (namedPath? b).any (·.1 == path)) = fun b => b.names path := by
    intro hne
    funext b
    rw [← fst_namedPath?_beq hne]
    cases namedPath? b <;> rfl
  rw [aliases_eq, ImportAliases.mem_entries_ofPairs, List.find?_filterMap,
    Option.bind_eq_some_iff]
  constructor
  · rintro ⟨b, hfirst, hb⟩
    obtain ⟨hne, rfl⟩ := namedPath?_eq_some_iff.mp hb
    exact ⟨hne, hnames hne ▸ hfirst⟩
  · rintro ⟨hne, hfirst⟩
    exact ⟨_, (hnames hne).symm ▸ hfirst, namedPath?_eq_some_iff.mpr ⟨hne, rfl⟩⟩

theorem mem_paths_of_mem_aliases {entry : String × String}
    (h : entry ∈ (aliases found).entries) : entry.1 ∈ paths found := by
  obtain ⟨hne, hfirst⟩ := mem_aliases.mp h
  exact mem_paths.mpr ⟨hne, _, List.mem_of_find?_eq_some hfirst, rfl⟩

/-- Paths with local names stand in the order of their first imports that have one. -/
theorem pairwise_aliases (found : List ImportBinding) :
    (aliases found).entries.Pairwise fun e e' =>
      found.findIdx (·.names e.1) < found.findIdx (·.names e'.1) := by
  have hne : ∀ e ∈ (aliases found).entries, e.1 ≠ "" := fun e he => (mem_aliases.mp he).1
  have hplaces := Lists.pairwise_findIdx_eraseDups (fun b => (namedPath? b).map Prod.fst) found
  rw [← keys_aliases, List.pairwise_map] at hplaces
  refine hplaces.imp_of_mem fun {e e'} he he' hlt => ?_
  simpa only [fst_namedPath?_beq (hne e he), fst_namedPath?_beq (hne e' he')] using hlt

end Imports

namespace SourceContext

open Syntax (Node SourceText)

variable (l : Language) (t : SourceText) (root : Node)

theorem recorded_eq : (⟨(ofTree l t root).imports, (ofTree l t root).aliases⟩ : Imports.Recorded) =
    ⟨Imports.paths (Imports.bindingsIn (Imports.reader l t) root),
      Imports.aliases (Imports.bindingsIn (Imports.reader l t) root)⟩ := by
  rw [recorded_ofTree, Imports.foldl_add]

theorem imports_ofTree : (ofTree l t root).imports =
    Imports.paths (Imports.bindingsIn (Imports.reader l t) root) :=
  congrArg (·.paths) (recorded_eq l t root)

theorem aliases_ofTree : (ofTree l t root).aliases =
    Imports.aliases (Imports.bindingsIn (Imports.reader l t) root) :=
  congrArg (·.aliases) (recorded_eq l t root)

/-- What has a local name is an imported path. -/
theorem mem_imports_of_mem_aliases {l : Language} {t : SourceText} {root : Node}
    {entry : String × String} (h : entry ∈ (ofTree l t root).aliases.entries) :
    entry.1 ∈ (ofTree l t root).imports := by
  rw [aliases_ofTree] at h
  rw [imports_ofTree]
  exact Imports.mem_paths_of_mem_aliases h

/-- **First bindings.** The context of any tree goes by the bindings of its import statements in
source order. The imports are the paths that are not empty, each once, in the order of their first
bindings. The local names are those of the first binding of each such path that has one, in the
order of these. So no path has two local names, what has one is imported, and no key comes twice
when local names are written out. -/
theorem ofTree_firstBindings (l : Language) (t : SourceText) (root : Node) :
    let found := Imports.bindingsIn (Imports.reader l t) root
    let c := ofTree l t root
    (c.imports.Nodup ∧ (∀ path, path ∈ c.imports ↔ path ≠ "" ∧ ∃ b ∈ found, b.path = path) ∧
      c.imports.Pairwise fun p q =>
        found.findIdx (·.imports p) < found.findIdx (·.imports q)) ∧
    ((∀ path name, (path, name) ∈ c.aliases.entries ↔
        path ≠ "" ∧ found.find? (·.names path) = some ⟨path, some name⟩) ∧
      c.aliases.entries.Pairwise fun e e' =>
        found.findIdx (·.names e.1) < found.findIdx (·.names e'.1)) ∧
    (c.aliases.entries.map Prod.fst).Nodup ∧
    (∀ entry ∈ c.aliases.entries, entry.1 ∈ c.imports) ∧
    ∃ fields, c.aliases.toJson = .object fields ∧ (fields.map Prod.fst).Nodup := by
  intro found c
  have himports : c.imports = Imports.paths found := imports_ofTree l t root
  have haliases : c.aliases = Imports.aliases found := aliases_ofTree l t root
  have honce : (c.aliases.entries.map Prod.fst).Nodup := haliases ▸ Imports.nodup_keys_aliases found
  refine ⟨⟨?_, fun path => ?_, ?_⟩, ⟨fun path name => ?_, ?_⟩, honce, ?_, ?_⟩
  · rw [himports, Imports.paths_eq]
    exact Lists.nodup_eraseDups _
  · rw [himports]
    exact Imports.mem_paths
  · rw [himports]
    exact Imports.pairwise_paths found
  · rw [haliases]
    exact Imports.mem_aliases
  · rw [haliases]
    exact Imports.pairwise_aliases found
  · exact fun entry hentry => mem_imports_of_mem_aliases hentry
  · refine ⟨_, rfl, ?_⟩
    rw [List.map_map]
    exact honce

/-- An import without a local name does not keep a later one from giving its name, and the name
that is given first stays. -/
example :
    let found : List ImportBinding :=
      [⟨"m", none⟩, ⟨"a", some "b"⟩, ⟨"m", some "x"⟩, ⟨"m", some "y"⟩]
    Imports.paths found = ["m", "a"] ∧
      (Imports.aliases found).entries = [("a", "b"), ("m", "x")] := by
  decide

end SourceContext

end SourceFacts
