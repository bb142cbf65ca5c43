import Mathlib.Data.List.Perm.Basic
import SourceFacts.Proofs.Catalog.Loads
import SourceFacts.Proofs.Lists

/-!
# Merging as a union

A merge is a union of features in which the earlier one counts (`find?_merge`). How merges are
grouped does not matter (`catalog_merge_assoc`): a feature that comes late is refused in either
grouping if its entry is taken, though not by the same merge, so that the refusals are the same but
for their order (`refused_merge_assoc`). A load of which everything is there already changes
nothing (`merge_of_subset`).
-/

namespace SourceFacts

namespace Catalog

variable {c c' : Catalog} {l : CatalogLoad} {family : Family} {f g : Feature}

theorem eq_of_ofFamily_eq (h : ∀ family, c.ofFamily family = c'.ofFamily family) : c = c' := by
  obtain ⟨python, typescript⟩ := c
  obtain ⟨python', typescript'⟩ := c'
  exact congrArg₂ Catalog.mk (h .python) (h .typescript)

/-- The feature of a family with the given library and key. -/
def find? (c : Catalog) (family : Family) (entry : String × String) : Option Feature :=
  (c.ofFamily family).find? (·.entry = entry)

/-- The refusals of the features of a catalog whose entries another one has. -/
def refusals (c other : Catalog) : List ConfigError :=
  [Family.python, .typescript].flatMap fun family =>
    ((other.ofFamily family).filter (c.has family)).map (taken family)

theorem has_congr (h : f.entry = g.entry) : c.has family f = c.has family g := by
  rw [Bool.eq_iff_iff, has_iff, has_iff, h]

theorem ofFamily_merge (h : l.catalog.WellFormed) (c : Catalog) (family : Family) :
    (c.merge l).catalog.ofFamily family =
      c.ofFamily family ++ (l.catalog.ofFamily family).filter fun f => !c.has family f :=
  (merge_spec h c).1 family

theorem refused_merge (h : l.catalog.WellFormed) (c : Catalog) :
    (c.merge l).refused = l.refused ++ c.refusals l.catalog :=
  (merge_spec h c).2

/-- A merge takes the entries of both catalogs. -/
theorem has_merge (h : l.catalog.WellFormed) (c : Catalog) (family : Family) (f : Feature) :
    (c.merge l).catalog.has family f = (c.has family f || l.catalog.has family f) := by
  rw [has, ofFamily_merge h, List.any_append, ← has]
  cases hf : c.has family f with
  | true => rfl
  | false =>
    -- No feature with the entry of `f` is left out.
    simp only [Bool.false_or, has, List.any_filter]
    refine congrArg (List.any _) (funext fun g => ?_)
    cases hsame : sameEntry f g with
    | false => exact Bool.and_false _
    | true =>
      have hg : c.has family g = false := (has_congr (sameEntry_iff.mp hsame)).symm.trans hf
      rw [has] at hg
      rw [hg]
      rfl

/-- Of two features with the same entry the earlier one counts. -/
theorem find?_merge (h : l.catalog.WellFormed) (c : Catalog) (family : Family)
    (entry : String × String) : (c.merge l).catalog.find? family entry =
      (c.find? family entry).or (l.catalog.find? family entry) := by
  rw [find?, ofFamily_merge h, List.find?_append, ← find?]
  cases hfirst : c.find? family entry with
  | some g => rfl
  | none =>
    rw [Option.none_or, Option.none_or, List.find?_filter, find?]
    refine congrArg (List.find? · _) (funext fun g => ?_)
    by_cases hg : g.entry = entry
    · have hnew : c.has family g = false := by
        rw [Bool.eq_false_iff, Ne, has_iff, hg]
        simpa [find?, List.find?_eq_none] using hfirst
      simp [hg, hnew]
    · simp [hg]

/-- Of a load with nothing new, nothing is taken and everything is refused. -/
theorem merge_of_subset (h : l.catalog.WellFormed)
    (hall : ∀ family, ∀ f ∈ l.catalog.ofFamily family, c.has family f = true) :
    (c.merge l).catalog = c ∧
      (c.merge l).refused = l.refused ++ [Family.python, .typescript].flatMap fun family =>
        (l.catalog.ofFamily family).map (taken family) := by
  constructor
  · refine eq_of_ofFamily_eq fun family => ?_
    rw [ofFamily_merge h, List.filter_eq_nil_iff.mpr fun f hf => by simp [hall family f hf],
      List.append_nil]
  · rw [refused_merge h, refusals]
    refine congrArg (l.refused ++ ·) (List.flatMap_congr fun family _ => ?_)
    rw [List.filter_eq_self.mpr (hall family)]

end Catalog

namespace CatalogLoad

open Catalog

variable {a b c : CatalogLoad}

/-- A load with another one merged into it. What either of them refused stays refused. -/
def merge (a b : CatalogLoad) : CatalogLoad :=
  let merged := a.catalog.merge b
  { merged with refused := a.refused ++ merged.refused }

/-- What comes of files: the load of a source, or such loads merged. -/
inductive OfFiles : CatalogLoad → Prop
  | load {s : CatalogSource} {l : CatalogLoad} (h : s.load? = .ok l) : OfFiles l
  | merge {a b : CatalogLoad} (ha : OfFiles a) (hb : OfFiles b) : OfFiles (a.merge b)

theorem OfFiles.wellFormed (h : a.OfFiles) : a.catalog.WellFormed := by
  induction h with
  | load h => exact (CatalogSource.accounts_of_load? h).wellFormed
  | merge _ _ iha ihb => exact iha.merge ihb

theorem ofFamily_catalog_merge (hb : b.catalog.WellFormed) (family : Family) :
    (a.merge b).catalog.ofFamily family = a.catalog.ofFamily family ++
      (b.catalog.ofFamily family).filter fun f => !a.catalog.has family f :=
  ofFamily_merge hb a.catalog family

theorem has_catalog_merge (hb : b.catalog.WellFormed) (family : Family) :
    (a.merge b).catalog.has family = fun f =>
      a.catalog.has family f || b.catalog.has family f :=
  funext (has_merge hb a.catalog family)

theorem refused_merge (hb : b.catalog.WellFormed) :
    (a.merge b).refused = a.refused ++ (b.refused ++ a.catalog.refusals b.catalog) :=
  congrArg (a.refused ++ ·) (Catalog.refused_merge hb a.catalog)

theorem catalog_merge_assoc (hb : b.catalog.WellFormed) (hc : c.catalog.WellFormed) :
    ((a.merge b).merge c).catalog = (a.merge (b.merge c)).catalog := by
  have hbc : (b.merge c).catalog.WellFormed := hb.merge hc
  refine eq_of_ofFamily_eq fun family => ?_
  rw [ofFamily_catalog_merge hc, ofFamily_catalog_merge hb, has_catalog_merge hb,
    ofFamily_catalog_merge hbc, ofFamily_catalog_merge hc, List.filter_append,
    List.filter_filter, List.append_assoc]
  simp only [Bool.not_or]

/-- What the second of two merges refuses, in one grouping and in the other. -/
theorem refusals_merge_assoc (hb : b.catalog.WellFormed) (hc : c.catalog.WellFormed) :
    (a.catalog.refusals b.catalog ++ (a.merge b).catalog.refusals c.catalog).Perm
      (b.catalog.refusals c.catalog ++ a.catalog.refusals (b.merge c).catalog) := by
  refine (List.flatMap_append_perm _ _ _).trans
    (.trans ?_ (List.flatMap_append_perm _ _ _).symm)
  refine List.Perm.flatMap_left _ fun family _ => ?_
  -- What the last load has in common with the first two, it has in common with the second, or it
  -- is new to the second and in common with the first.
  have hlast := (Lists.perm_filter_or (a.catalog.has family) (b.catalog.has family)
    (c.catalog.ofFamily family)).map (taken family)
  rw [has_catalog_merge hb, ofFamily_catalog_merge hc, List.filter_append, List.map_append]
  rw [List.map_append] at hlast
  exact (hlast.append_left _).trans (List.perm_append_comm_assoc _ _ _)

/-- What is refused in one grouping is refused in the other. -/
theorem refused_merge_assoc (hb : b.catalog.WellFormed) (hc : c.catalog.WellFormed) :
    ((a.merge b).merge c).refused.Perm (a.merge (b.merge c)).refused := by
  have hbc : (b.merge c).catalog.WellFormed := hb.merge hc
  rw [refused_merge hc, refused_merge hb, refused_merge hbc, refused_merge hc]
  simp only [List.append_assoc]
  refine .append_left _ (.append_left _ ?_)
  exact (List.perm_append_comm_assoc _ _ _).trans ((refusals_merge_assoc hb hc).append_left _)

theorem empty_merge (ha : a.catalog.WellFormed) : empty.merge a = a := by
  have hnone : ∀ family f, Catalog.empty.has family f = false := by
    intro family f
    cases family <;> rfl
  have hcatalog : (empty.merge a).catalog = a.catalog := by
    refine eq_of_ofFamily_eq fun family => ?_
    rw [ofFamily_catalog_merge ha]
    have hall : (a.catalog.ofFamily family).filter (fun f => !empty.catalog.has family f) =
        a.catalog.ofFamily family := List.filter_eq_self.mpr fun f _ => by
      rw [empty, hnone, Bool.not_false]
    rw [hall]
    cases family <;> rfl
  have hrefused : (empty.merge a).refused = a.refused := by
    have hnothing : Catalog.empty.refusals a.catalog = [] := by
      rw [refusals, List.flatMap_eq_nil_iff]
      intro family _
      rw [List.filter_eq_nil_iff.mpr fun f _ => by simp [hnone], List.map_nil]
    rw [refused_merge ha, empty, hnothing, List.nil_append, List.append_nil]
  exact congrArg₂ CatalogLoad.mk hcatalog hrefused

theorem merge_empty (a : CatalogLoad) : a.merge empty = a := by
  rw [merge]
  exact congrArg (CatalogLoad.mk a.catalog) (List.append_nil a.refused)

/-- **Merging is a union in which the first counts.** Of the features with some library and key,
that of the earlier catalog is found. Grouping does not matter: neither to the features and their
order, nor, but for their order, to the refusals. The load of nothing is neutral. A load with
nothing new leaves a catalog as it is, and all its features are refused. -/
theorem merge_isUnion (ha : a.OfFiles) (hb : b.OfFiles) (hc : c.OfFiles) :
    (∀ family entry, (a.catalog.merge b).catalog.find? family entry =
      (a.catalog.find? family entry).or (b.catalog.find? family entry)) ∧
    ((a.merge b).merge c).catalog = (a.merge (b.merge c)).catalog ∧
    ((a.merge b).merge c).refused.Perm (a.merge (b.merge c)).refused ∧
    (empty.merge a = a ∧ a.merge empty = a) ∧
    ((∀ family, ∀ f ∈ b.catalog.ofFamily family, a.catalog.has family f = true) →
      (a.catalog.merge b).catalog = a.catalog ∧
      (a.catalog.merge b).refused = b.refused ++ [Family.python, .typescript].flatMap fun family =>
        (b.catalog.ofFamily family).map (taken family)) :=
  ⟨find?_merge hb.wellFormed a.catalog,
    catalog_merge_assoc hb.wellFormed hc.wellFormed,
    refused_merge_assoc hb.wellFormed hc.wellFormed,
    ⟨empty_merge ha.wellFormed, merge_empty a⟩,
    merge_of_subset hb.wellFormed⟩

/-- Three directories, each with one file, whose records are lists of their fields; the second has
something in common with each of the others. -/
def overlapping : FileSystem :=
  let feature (key : String) : String :=
    "[\"" ++ key ++ "\", \"web\", [\"web.App\"], \"function\", \"call\"]"
  let directory (keys : List String) : FileTree := .directory [("web.json", .file
    ("[1, \"python\", \"web\", [" ++ ", ".intercalate (keys.map feature) ++ "]]").toUTF8)]
  ⟨.directory
    [("a", directory ["get"]), ("b", directory ["get", "put"]), ("c", directory ["put"])], []⟩

/-- What the directories have under a key. -/
def overlappingFeature (key : String) : Feature :=
  { key, library := "web", paths := ["web.App"], target := .function, concept := .call
    strategy := .direct, constructs := none, description := "", startpoint := false }

theorem merge_isUnion_overlapping :
    let load (keys : List String) : CatalogLoad := ⟨⟨keys.map overlappingFeature, []⟩, []⟩
    let a := load ["get"]
    let b := load ["get", "put"]
    let c := load ["put"]
    (a.OfFiles ∧ b.OfFiles ∧ c.OfFiles) ∧
      ((a.merge b).merge c).catalog = (load ["get", "put"]).catalog ∧
      ((a.merge b).merge c).catalog = (a.merge (b.merge c)).catalog ∧
      ((a.merge b).merge c).refused ≠ (a.merge (b.merge c)).refused ∧
      ((a.merge b).merge c).refused.Perm (a.merge (b.merge c)).refused ∧
      (b.catalog.merge c).catalog = b.catalog := by
  intro load a b c
  have hloads :
      (CatalogSource.directory overlapping "/a").load? = .ok a ∧
      (CatalogSource.directory overlapping "/b").load? = .ok b ∧
      (CatalogSource.directory overlapping "/c").load? = .ok c := by
    decide +kernel
  obtain ⟨ha, hb, hc⟩ := hloads
  obtain ⟨-, hassoc, hperm, -, -⟩ := merge_isUnion (.load ha) (.load hb) (.load hc)
  obtain ⟨-, -, -, -, hsubset⟩ := merge_isUnion (.load hb) (.load hc) (.load ha)
  have hall : ∀ family, ∀ f ∈ c.catalog.ofFamily family, b.catalog.has family f = true := by
    intro family
    cases family <;> decide
  exact ⟨⟨.load ha, .load hb, .load hc⟩, by decide, hassoc, by decide, hperm, (hsubset hall).1⟩

end CatalogLoad

end SourceFacts
