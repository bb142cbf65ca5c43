import Mathlib.Data.List.Nodup
import SourceFacts.Catalog

/-!
# Merging catalogs

In a well-formed catalog no entry comes twice within a family and no feature has a fault. Adding
features one after the other keeps what is there and appends those whose entries are not taken
(`insertAll_spec`). So a merge keeps a catalog as it is, appends what is new to it, refuses the rest
(`merge_spec`), and keeps it well-formed (`WellFormed.merge`).
-/

namespace SourceFacts

/-- What identifies a feature within a family. -/
def Feature.entry (f : Feature) : String × String := (f.library, f.key)

namespace Catalog

variable {c : Catalog} {family : Family} {f g : Feature} {fs : List Feature}

theorem sameEntry_iff : sameEntry f g = true ↔ f.entry = g.entry := by
  simp [sameEntry, Feature.entry]

/-- Within a family every entry is there once, and no feature has a fault. -/
structure WellFormed (c : Catalog) : Prop where
  distinct : ∀ family, ((c.ofFamily family).map Feature.entry).Nodup
  faultless : ∀ family, ∀ f ∈ c.ofFamily family, f.fault? = none

/-- Whether the entry of a feature is taken. -/
def has (c : Catalog) (family : Family) (f : Feature) : Bool :=
  (c.ofFamily family).any (sameEntry f)

theorem has_iff : c.has family f = true ↔ f.entry ∈ (c.ofFamily family).map Feature.entry := by
  simp only [has, List.any_eq_true, sameEntry_iff, List.mem_map]
  exact exists_congr fun g => and_congr_right fun _ => eq_comm

theorem wellFormed_empty : empty.WellFormed where
  distinct family := by cases family <;> exact List.nodup_nil
  faultless family f hf := by cases family <;> cases hf

/-! ## One feature -/

theorem ofFamily_add_self (c : Catalog) (family : Family) (f : Feature) :
    (c.add f family).ofFamily family = c.ofFamily family ++ [f] := by
  cases family <;> rfl

theorem ofFamily_add_of_ne (c : Catalog) (f : Feature) {other : Family} (h : other ≠ family) :
    (c.add f family).ofFamily other = c.ofFamily other := by
  cases family <;> cases other <;> first | exact absurd rfl h | rfl

theorem WellFormed.add (h : c.WellFormed) (hnew : c.has family f = false) (hf : f.fault? = none) :
    (c.add f family).WellFormed where
  distinct other := by
    by_cases hother : other = family
    · subst hother
      have hnotMem : f.entry ∉ (c.ofFamily other).map Feature.entry := by
        simp [← has_iff, hnew]
      rw [ofFamily_add_self, List.map_append, List.map_singleton, ← List.concat_eq_append]
      exact (h.distinct other).concat hnotMem
    · rw [ofFamily_add_of_ne c f hother]
      exact h.distinct other
  faultless other g hg := by
    by_cases hother : other = family
    · subst hother
      rw [ofFamily_add_self, List.mem_append, List.mem_singleton] at hg
      rcases hg with hg | rfl
      · exact h.faultless other g hg
      · exact hf
    · rw [ofFamily_add_of_ne c f hother] at hg
      exact h.faultless other g hg

/-- The refusal of a feature whose entry is taken. -/
def taken (family : Family) (f : Feature) : ConfigError :=
  refusal f ("duplicate feature in language '" ++ family.name ++ "'")

end Catalog

namespace CatalogLoad

variable {l : CatalogLoad} {family : Family} {f : Feature}

@[simp] theorem catalog_refuse (l : CatalogLoad) (e : ConfigError) :
    (l.refuse e).catalog = l.catalog := rfl

@[simp] theorem refused_refuse (l : CatalogLoad) (e : ConfigError) :
    (l.refuse e).refused = l.refused ++ [e] := rfl

theorem insert_of_has (h : l.catalog.has family f = true) :
    l.insert family f = l.refuse (Catalog.taken family f) := by
  rw [Catalog.has] at h
  simp only [insert, Catalog.insert, h, if_true]
  rfl

theorem insert_of_not_has (h : l.catalog.has family f = false) :
    l.insert family f = { l with catalog := l.catalog.add f family } := by
  rw [Catalog.has] at h
  simp only [insert, Catalog.insert, h, Bool.false_eq_true, if_false]

/-- Adds features one after the other. -/
def insertAll (l : CatalogLoad) (family : Family) (fs : List Feature) : CatalogLoad :=
  fs.foldl (fun l f => l.insert family f) l

end CatalogLoad

namespace Catalog

variable {c : Catalog} {family : Family} {fs : List Feature}

/-! ## Many features -/

/-- Of features with different entries, those whose entries are not taken are appended, and the
others are refused, each in order. -/
theorem insertAll_spec (hdistinct : (fs.map Feature.entry).Nodup) (l : CatalogLoad) :
    let result := l.insertAll family fs
    result.catalog.ofFamily family =
        l.catalog.ofFamily family ++ fs.filter (fun f => !l.catalog.has family f) ∧
      (∀ other, other ≠ family → result.catalog.ofFamily other = l.catalog.ofFamily other) ∧
      result.refused = l.refused ++ (fs.filter (l.catalog.has family)).map (taken family) := by
  induction fs generalizing l with
  | nil => simp [CatalogLoad.insertAll]
  | cons f fs ih =>
    rw [List.map_cons, List.nodup_cons] at hdistinct
    have hcons : l.insertAll family (f :: fs) = (l.insert family f).insertAll family fs := rfl
    rw [hcons]
    obtain ⟨hf, hrest⟩ := hdistinct
    cases hhas : l.catalog.has family f with
    | true =>
      obtain ⟨hkept, hothers, hrefused⟩ := ih hrest (l.refuse (taken family f))
      rw [CatalogLoad.insert_of_has hhas]
      refine ⟨?_, hothers, ?_⟩
      · simp [hkept, hhas]
      · simp [hrefused, hhas]
    | false =>
      obtain ⟨hkept, hothers, hrefused⟩ :=
        ih hrest { l with catalog := l.catalog.add f family }
      -- The feature that is added takes no entry of the others.
      have hsame : ∀ g ∈ fs, (l.catalog.add f family).has family g = l.catalog.has family g := by
        intro g hg
        have hne : f.entry ≠ g.entry := fun heq => hf (heq ▸ List.mem_map_of_mem hg)
        have hdiffers : sameEntry g f = false := by
          rw [Bool.eq_false_iff, Ne, sameEntry_iff]
          exact hne.symm
        simp [has, ofFamily_add_self, hdiffers]
      rw [CatalogLoad.insert_of_not_has hhas]
      refine ⟨?_, fun other hother => ?_, ?_⟩
      · rw [hkept, ofFamily_add_self, List.filter_congr fun g hg => by rw [hsame g hg]]
        simp [hhas]
      · rw [hothers other hother, ofFamily_add_of_ne _ _ hother]
      · rw [hrefused, List.filter_congr hsame]
        simp [hhas]

/-! ## Merging -/

/-- What a merge adds to a family, and what it refuses. -/
theorem merge_spec {l : CatalogLoad} (h : l.catalog.WellFormed) (c : Catalog) :
    (∀ family, (c.merge l).catalog.ofFamily family =
      c.ofFamily family ++ (l.catalog.ofFamily family).filter fun f => !c.has family f) ∧
    (c.merge l).refused = l.refused ++ [Family.python, .typescript].flatMap fun family =>
      ((l.catalog.ofFamily family).filter (c.has family)).map (taken family) := by
  have hne : Family.typescript ≠ .python := by decide
  set python := CatalogLoad.insertAll ⟨c, l.refused⟩ .python (l.catalog.ofFamily .python)
  have hmerge : c.merge l = python.insertAll .typescript (l.catalog.ofFamily .typescript) := rfl
  obtain ⟨hkept, hothers, hrefused⟩ := insertAll_spec (h.distinct .python) ⟨c, l.refused⟩
  obtain ⟨hkept', hothers', hrefused'⟩ := insertAll_spec (h.distinct .typescript) python
  have hbefore : python.catalog.ofFamily .typescript = c.ofFamily .typescript :=
    hothers .typescript hne
  have hhas : python.catalog.has .typescript = c.has .typescript := by
    funext f
    rw [has, has, hbefore]
  refine ⟨fun family => ?_, ?_⟩
  · cases family with
    | python => exact (hothers' .python hne.symm).trans hkept
    | typescript =>
      rw [hbefore, hhas] at hkept'
      exact hkept'
  · rw [hmerge, hrefused', hhas, hrefused]
    simp

theorem WellFormed.merge {l : CatalogLoad} (h : c.WellFormed) (hl : l.catalog.WellFormed) :
    (c.merge l).catalog.WellFormed where
  distinct family := by
    rw [(merge_spec hl c).1, List.map_append, List.nodup_append']
    refine ⟨h.distinct family, (hl.distinct family).sublist (List.filter_sublist.map _), ?_⟩
    intro entry hentry hnew
    obtain ⟨f, hf, rfl⟩ := List.mem_map.mp hnew
    simp [has_iff.mpr hentry] at hf
  faultless family f hf := by
    rw [(merge_spec hl c).1, List.mem_append] at hf
    rcases hf with hf | hf
    · exact h.faultless family f hf
    · exact hl.faultless family f (List.mem_of_mem_filter hf)

end Catalog

end SourceFacts
