import Mathlib.Data.List.Forall2
import Mathlib.Data.List.Perm.Subperm
import Mathlib.Logic.Relation
import Mathlib.Order.Bounds.Basic
import SourceFacts.DataModel
import SourceFacts.Proofs.Lists

/-!
# Models by inheritance

The names of the models in an outline are found by passes over the classes, each of which adds the
classes with a base among the names so far, until a pass adds nothing (`Rounds`). Whatever set has
the heirs of all its names is never left by a pass (`mem_of_mem_inheritors`), and a pass that adds
nothing has met no further heir (`heirs_of_settled`): so the loop ends with the least set that has
the names it starts with and their heirs (`Rounds.isLeast`). It ends because every other pass adds
a name of a class (`exists_rounds`).

So the order of the classes and of their bases does not matter (`mem_modelNames_reordered`).
-/

namespace SourceFacts.DataModel

open Relation (ReflTransGen)

/-- A base without its subscript. -/
def withoutSubscript (base : String) : String := Text.trimmed (Text.before '[' base)

/-- A class is known to be a model by a decorator or a base. -/
def IsKnown (m : ImportAliases) (k : ClassOutline) : Prop :=
  (∃ d ∈ k.decorators, ∃ path ∈ modelDecorators,
    m.resolve? (Text.trimmed (Text.before '(' d)) = some path) ∨
  ∃ b ∈ k.bases, ∃ path ∈ modelBases, m.resolve? (withoutSubscript b) = some path

/-- A class with a base among some names is among them too. -/
def HasHeirs (classes : List ClassOutline) (names : Set String) : Prop :=
  ∀ k ∈ classes, ∀ b ∈ k.bases, b ∈ names → k.name ∈ names

/-- A set of names has the classes that are known to be models and the heirs of its names. -/
def HasModels (m : ImportAliases) (classes : List ClassOutline) (names : Set String) : Prop :=
  (∀ k ∈ classes, IsKnown m k → k.name ∈ names) ∧ HasHeirs classes names

/-- A class by one name has the other as a base. -/
def Inherits (classes : List ClassOutline) (parent child : String) : Prop :=
  ∃ k ∈ classes, k.name = child ∧ parent ∈ k.bases

/-- A class is a model itself: by a decorator or a base, or because a base is the name of one. -/
def IsModel (m : ImportAliases) (o : Outline) (k : ClassOutline) : Prop :=
  IsKnown m k ∨ ∃ b ∈ k.bases, b ∈ modelNames m o

/-- Classes that differ in the order of decorators and bases, in lines and in methods at most. -/
structure SameClass (k k' : ClassOutline) : Prop where
  name : k.name = k'.name
  decorators : k.decorators.Perm k'.decorators
  bases : k.bases.Perm k'.bases

/-- The same classes in any order, and each with its bases in any order. -/
def Reordered (classes classes' : List ClassOutline) : Prop :=
  ∃ between, classes.Perm between ∧ between.Forall₂ SameClass classes'

/-- The names of the classes that are known to be models. -/
def knownNames (m : ImportAliases) (o : Outline) : List String :=
  ((o.classes.filter (isSeed m)).map (·.name)).eraseDups

/-- Passes are made until one adds nothing. -/
inductive Rounds (classes : List ClassOutline) : List String → Nat → List String → Prop
  | last {models : List String} (h : (inheritors classes models).length = models.length) :
      Rounds classes models 1 models
  | more {models result : List String} {n : Nat}
      (h : (inheritors classes models).length ≠ models.length)
      (hrest : Rounds classes (inheritors classes models) n result) :
      Rounds classes models (n + 1) result

variable {m : ImportAliases} {o : Outline} {k : ClassOutline} {classes classes' : List ClassOutline}
variable {models result : List String} {names : Set String} {n : String} {rounds : Nat}

theorem isSeed_iff : isSeed m k = true ↔ IsKnown m k := by
  simp [isSeed, isModelDecorator, isModelBase, IsKnown, withoutSubscript, Option.any_eq_true,
    and_comm]

instance : Decidable (IsModel m o k) :=
  decidable_of_iff (isSeed m k = true ∨ ∃ b ∈ k.bases, b ∈ modelNames m o)
    (or_congr_left isSeed_iff)

theorem mem_knownNames : n ∈ knownNames m o ↔ ∃ k ∈ o.classes, IsKnown m k ∧ k.name = n := by
  simp only [knownNames, List.mem_eraseDups, List.mem_map, List.mem_filter, isSeed_iff, and_assoc]

/-! ## One pass -/

theorem suffix_inheritors (classes : List ClassOutline) (models : List String) :
    models <:+ inheritors classes models := by
  induction classes generalizing models with
  | nil => exact List.suffix_rfl
  | cons k rest ih =>
    unfold inheritors
    split
    · exact (List.suffix_cons k.name models).trans (ih (k.name :: models))
    · exact ih models

theorem nodup_inheritors (classes : List ClassOutline) (h : models.Nodup) :
    (inheritors classes models).Nodup := by
  induction classes generalizing models with
  | nil => exact h
  | cons k rest ih =>
    unfold inheritors
    split
    · rename_i hnew
      have hfresh : k.name ∉ models := by
        intro hmem
        simp [hmem] at hnew
      exact ih (List.nodup_cons.mpr ⟨hfresh, h⟩)
    · exact ih h

/-- A pass over names from a set that has their heirs adds none but names of the set. -/
theorem mem_of_mem_inheritors (hheirs : HasHeirs classes names) (h : ∀ n ∈ models, n ∈ names) :
    ∀ n ∈ inheritors classes models, n ∈ names := by
  induction classes generalizing models with
  | nil => exact h
  | cons k rest ih =>
    have hrest : HasHeirs rest names := fun k' hk' => hheirs k' (List.mem_cons_of_mem k hk')
    unfold inheritors
    split
    · rename_i hnew
      obtain ⟨-, b, hb, hmodel⟩ : k.name ∉ models ∧ ∃ b ∈ k.bases, b ∈ models := by
        simpa using hnew
      have hname : k.name ∈ names := hheirs k List.mem_cons_self b hb (h b hmodel)
      exact ih hrest (List.forall_mem_cons.mpr ⟨hname, h⟩)
    · exact ih hrest h

/-- A pass that adds nothing has met no heir that was not there. -/
theorem heirs_of_settled (h : (inheritors classes models).length = models.length) :
    HasHeirs classes {n | n ∈ models} := by
  induction classes with
  | nil => exact fun _ hk => absurd hk List.not_mem_nil
  | cons k rest ih =>
    unfold inheritors at h
    split at h
    · have hlonger := (suffix_inheritors rest (k.name :: models)).length_le
      rw [List.length_cons] at hlonger
      omega
    · rename_i hold
      intro k' hk' b hb hmodel
      rcases List.mem_cons.mp hk' with rfl | hk'
      · have hany : k'.bases.any models.contains = true :=
          List.any_eq_true.mpr ⟨b, hb, List.contains_iff_mem.mpr hmodel⟩
        simpa [hany] using hold
      · exact ih h k' hk' b hb hmodel

/-! ## All passes -/

/-- The loop ends with the least set that has the names it starts with and their heirs. -/
theorem Rounds.isLeast (h : Rounds classes models rounds result) :
    IsLeast {names : Set String | (∀ n ∈ models, n ∈ names) ∧ HasHeirs classes names}
      {n | n ∈ result} := by
  induction h with
  | last h => exact ⟨⟨fun _ hn => hn, heirs_of_settled h⟩, fun _ hnames => hnames.1⟩
  | more _ _ ih =>
    obtain ⟨⟨hstart, hheirs⟩, hleast⟩ := ih
    refine ⟨⟨fun n hn => hstart n ((suffix_inheritors _ _).subset hn), hheirs⟩, ?_⟩
    -- A set that has the names before the pass and their heirs also has the names after it.
    intro names hnames
    exact hleast ⟨mem_of_mem_inheritors hnames.2 hnames.1, hnames.2⟩

theorem Rounds.unique {rounds' : Nat} {result' : List String}
    (h : Rounds classes models rounds result) (h' : Rounds classes models rounds' result') :
    rounds' = rounds ∧ result' = result := by
  induction h generalizing rounds' with
  | last h =>
    cases h' with
    | last => exact ⟨rfl, rfl⟩
    | more hmore => exact absurd h hmore
  | more h _ ih =>
    cases h' with
    | last hlast => exact absurd hlast h
    | more _ hrest =>
      obtain ⟨rfl, rfl⟩ := ih hrest
      exact ⟨rfl, rfl⟩

theorem length_le_of_named (hnodup : models.Nodup)
    (hnames : ∀ n ∈ models, n ∈ classes.map (·.name)) : models.length ≤ classes.length := by
  simpa using (hnodup.subperm hnames).length_le

/-- Every pass but the last adds a name of a class, so there is at most one more than classes. -/
theorem exists_rounds (fuel : Nat) (hnodup : models.Nodup)
    (hnames : ∀ n ∈ models, n ∈ classes.map (·.name))
    (hfuel : classes.length < fuel + models.length) :
    ∃ rounds, rounds + models.length ≤ classes.length + 1 ∧
      Rounds classes models rounds (closure classes fuel models) := by
  have hbound := length_le_of_named hnodup hnames
  induction fuel generalizing models with
  | zero => omega
  | succ fuel ih =>
    unfold closure
    dsimp only
    split
    case isTrue h => exact ⟨1, by omega, .last h⟩
    case isFalse h =>
      -- The names have become more, so that the rest can do with a pass less.
      have hlonger := (suffix_inheritors classes models).length_le
      have hclasses : HasHeirs classes {n | n ∈ classes.map (·.name)} :=
        fun _ hk _ _ _ => List.mem_map_of_mem hk
      have hnodup' := nodup_inheritors classes hnodup
      have hnames' := mem_of_mem_inheritors hclasses hnames
      obtain ⟨rounds, hrounds, hrest⟩ := ih hnodup' hnames' (by omega)
        (length_le_of_named hnodup' hnames')
      exact ⟨rounds + 1, by omega, .more h hrest⟩

theorem exists_rounds_modelNames (m : ImportAliases) (o : Outline) :
    ∃ rounds ≤ o.classes.length + 1,
      Rounds o.classes (knownNames m o) rounds (modelNames m o) := by
  have hnames : ∀ n ∈ knownNames m o, n ∈ o.classes.map (·.name) := by
    intro n hn
    obtain ⟨k, hk, -, rfl⟩ := mem_knownNames.mp hn
    exact List.mem_map_of_mem hk
  obtain ⟨rounds, hrounds, hrun⟩ := exists_rounds (o.classes.length + 1)
    (Lists.nodup_eraseDups _) hnames (by omega)
  exact ⟨rounds, by omega, hrun⟩

/-! ## The names of models -/

theorem isLeast_modelNames (m : ImportAliases) (o : Outline) :
    IsLeast {names | HasModels m o.classes names} {n | n ∈ modelNames m o} := by
  obtain ⟨rounds, -, hrun⟩ := exists_rounds_modelNames m o
  have hset : {names | HasModels m o.classes names} =
      {names : Set String | (∀ n ∈ knownNames m o, n ∈ names) ∧ HasHeirs o.classes names} := by
    ext names
    refine and_congr_left fun _ => ?_
    simp only [mem_knownNames]
    constructor
    · rintro h n ⟨k, hk, hknown, rfl⟩
      exact h k hk hknown
    · intro h k hk hknown
      exact h k.name ⟨k, hk, hknown, rfl⟩
  rw [hset]
  exact hrun.isLeast

/-- Names of models are those that are reached from known models by inheritance. -/
theorem mem_modelNames_iff : n ∈ modelNames m o ↔
    ∃ k ∈ o.classes, IsKnown m k ∧ ReflTransGen (Inherits o.classes) k.name n := by
  obtain ⟨⟨hknown, hheirs⟩, hleast⟩ := isLeast_modelNames m o
  constructor
  · intro hn
    -- The names that are reached have the heirs of all of them.
    refine hleast (a := {n | ∃ k ∈ o.classes, IsKnown m k ∧
      ReflTransGen (Inherits o.classes) k.name n}) ⟨?_, ?_⟩ hn
    · exact fun k hk hk' => ⟨k, hk, hk', .refl⟩
    · rintro k hk b hb ⟨first, hfirst, hfirst', hchain⟩
      exact ⟨first, hfirst, hfirst', hchain.tail ⟨k, hk, rfl, hb⟩⟩
  · rintro ⟨first, hfirst, hfirst', hchain⟩
    induction hchain with
    | refl => exact hknown first hfirst hfirst'
    | tail _ hstep ih =>
      obtain ⟨k, hk, rfl, hb⟩ := hstep
      exact hheirs k hk _ hb ih

theorem mem_modelNames_iff_isModel :
    n ∈ modelNames m o ↔ ∃ k ∈ o.classes, k.name = n ∧ IsModel m o k := by
  obtain ⟨⟨hknown, hheirs⟩, -⟩ := isLeast_modelNames m o
  constructor
  · intro hn
    obtain ⟨first, hfirst, hfirst', hchain⟩ := mem_modelNames_iff.mp hn
    cases hchain with
    | refl => exact ⟨first, hfirst, rfl, .inl hfirst'⟩
    | @tail parent _ hpath hstep =>
      obtain ⟨k, hk, hname, hb⟩ := hstep
      have hparent : parent ∈ modelNames m o :=
        mem_modelNames_iff.mpr ⟨first, hfirst, hfirst', hpath⟩
      exact ⟨k, hk, hname, .inr ⟨parent, hb, hparent⟩⟩
  · rintro ⟨k, hk, rfl, hk' | ⟨b, hb, hmodel⟩⟩
    · exact hknown k hk hk'
    · exact hheirs k hk b hb hmodel

/-- There are models in an outline if and only if a class is one by itself. -/
theorem exists_modelName_iff :
    (∃ k ∈ o.classes, k.name ∈ modelNames m o) ↔ ∃ k ∈ o.classes, isSeed m k = true := by
  constructor
  · rintro ⟨k, -, hname⟩
    obtain ⟨first, hfirst, hknown, -⟩ := mem_modelNames_iff.mp hname
    exact ⟨first, hfirst, isSeed_iff.mpr hknown⟩
  · rintro ⟨k, hk, hseed⟩
    exact ⟨k, hk, (isLeast_modelNames m o).1.1 k hk (isSeed_iff.mp hseed)⟩

theorem bySignature_ne_nil_iff :
    bySignature m o ≠ [] ↔ ∃ k ∈ o.classes, k.name ∈ modelNames m o := by
  rw [bySignature, Ne, List.map_eq_nil_iff, List.filter_eq_nil_iff]
  simp

/-! ## Order -/

theorem Reordered.exists_sameClass (h : Reordered classes classes') :
    (∀ k ∈ classes, ∃ k' ∈ classes', SameClass k k') ∧
      ∀ k' ∈ classes', ∃ k ∈ classes, SameClass k k' := by
  obtain ⟨between, hperm, hsame⟩ := h
  simp only [hperm.mem_iff]
  clear hperm
  induction hsame with
  | nil => exact ⟨nofun, nofun⟩
  | cons hfirst _ ih =>
    refine ⟨?_, ?_⟩
    · rintro k (_ | ⟨_, hk⟩)
      · exact ⟨_, List.mem_cons_self, hfirst⟩
      · exact (ih.1 k hk).imp fun _ h => ⟨List.mem_cons_of_mem _ h.1, h.2⟩
    · rintro k (_ | ⟨_, hk⟩)
      · exact ⟨_, List.mem_cons_self, hfirst⟩
      · exact (ih.2 k hk).imp fun _ h => ⟨List.mem_cons_of_mem _ h.1, h.2⟩

theorem SameClass.symm {k' : ClassOutline} (h : SameClass k k') : SameClass k' k :=
  ⟨h.name.symm, h.decorators.symm, h.bases.symm⟩

theorem SameClass.isKnown_iff {k' : ClassOutline} (h : SameClass k k') :
    IsKnown m k ↔ IsKnown m k' := by
  simp only [IsKnown, h.decorators.mem_iff, h.bases.mem_iff]

theorem HasModels.reorder (hcovered : ∀ k' ∈ classes', ∃ k ∈ classes, SameClass k k')
    (h : HasModels m classes names) : HasModels m classes' names := by
  obtain ⟨hknown, hheirs⟩ := h
  refine ⟨fun k' hk' hknown' => ?_, fun k' hk' b hb hmodel => ?_⟩
  · obtain ⟨k, hk, hsame⟩ := hcovered k' hk'
    exact hsame.name ▸ hknown k hk (hsame.isKnown_iff.mpr hknown')
  · obtain ⟨k, hk, hsame⟩ := hcovered k' hk'
    exact hsame.name ▸ hheirs k hk b (hsame.bases.mem_iff.mpr hb) hmodel

theorem hasModels_reordered (h : Reordered classes classes') :
    HasModels m classes' names ↔ HasModels m classes names := by
  obtain ⟨hto, hfrom⟩ := h.exists_sameClass
  refine ⟨HasModels.reorder fun k hk => ?_, HasModels.reorder hfrom⟩
  obtain ⟨k', hk', hsame⟩ := hto k hk
  exact ⟨k', hk', hsame.symm⟩

theorem mem_modelNames_reordered {o' : Outline} (h : Reordered o.classes o'.classes) :
    n ∈ modelNames m o' ↔ n ∈ modelNames m o := by
  have hsets : {names | HasModels m o'.classes names} = {names | HasModels m o.classes names} :=
    Set.ext fun _ => hasModels_reordered h
  have hleast := isLeast_modelNames m o'
  rw [hsets] at hleast
  exact Set.ext_iff.mp (hleast.unique (isLeast_modelNames m o)) n

/-- **The names of models are a least fixpoint.** They are the least set that has the classes known
to be models and, with a base, the classes that have it. So they do not depend on the order of the
classes, nor on that of the bases of a class. The passes end after at most one more than there are
classes, and there are no models if and only if no class is known to be one. -/
theorem modelNames_isLeastFixpoint (m : ImportAliases) (o : Outline) :
    IsLeast {names | HasModels m o.classes names} {n | n ∈ modelNames m o} ∧
    (∀ n ∈ modelNames m o, ∃ k ∈ o.classes, k.name = n) ∧
    (∀ o' : Outline, Reordered o.classes o'.classes →
      ∀ n, n ∈ modelNames m o' ↔ n ∈ modelNames m o) ∧
    (∃ rounds ≤ o.classes.length + 1, ∀ rounds' result,
      Rounds o.classes (knownNames m o) rounds' result ↔
        rounds' = rounds ∧ result = modelNames m o) ∧
    (bySignature m o = [] ↔ ∀ k ∈ o.classes, ¬ IsKnown m k) := by
  refine ⟨isLeast_modelNames m o, fun n hn => ?_, fun o' h n => mem_modelNames_reordered h, ?_, ?_⟩
  · obtain ⟨k, hk, hname, -⟩ := mem_modelNames_iff_isModel.mp hn
    exact ⟨k, hk, hname⟩
  · obtain ⟨rounds, hrounds, hrun⟩ := exists_rounds_modelNames m o
    refine ⟨rounds, hrounds, fun rounds' result => ⟨hrun.unique, ?_⟩⟩
    rintro ⟨rfl, rfl⟩
    exact hrun
  · rw [← not_iff_not, ← Ne, bySignature_ne_nil_iff, exists_modelName_iff]
    simp only [isSeed_iff, not_forall, not_not, exists_prop]

/-- An heir before its base, two classes that have each other as a base, and a class that is its
own base. -/
theorem modelNames_isLeastFixpoint_cycle :
    let m : ImportAliases := ⟨[("pydantic.BaseModel", "Base")]⟩
    let k (name : String) (bases : List String) : ClassOutline := ⟨name, bases, [], 1, 2, []⟩
    let o : Outline := ⟨[k "C" ["B"], k "B" ["C", "A"], k "D" ["D"], k "A" ["Base"]], []⟩
    let o' : Outline := ⟨[k "A" ["Base"], k "B" ["A", "C"], k "C" ["B"], k "D" ["D"]], []⟩
    Reordered o.classes o'.classes ∧ ∀ n, n ∈ modelNames m o' ↔ n ∈ ["C", "B", "A"] := by
  intro m k o o'
  have hsame (k : ClassOutline) : SameClass k k := ⟨rfl, .refl _, .refl _⟩
  have hreordered : Reordered o.classes o'.classes := by
    refine ⟨[k "A" ["Base"], k "B" ["C", "A"], k "C" ["B"], k "D" ["D"]], by decide, ?_⟩
    exact .cons (hsame _) (.cons ⟨rfl, .refl _, .swap ..⟩ (.cons (hsame _) (.cons (hsame _) .nil)))
  obtain ⟨-, -, horder, -, -⟩ := modelNames_isLeastFixpoint m o
  have hnames : modelNames m o = ["C", "B", "A"] := by decide
  exact ⟨hreordered, fun n => hnames ▸ horder o' hreordered n⟩

/-! ## Subscripts -/

/-- A class by one name has the other, or a subscript of it, as a base. -/
def InheritsSubscript (classes : List ClassOutline) (parent child : String) : Prop :=
  ∃ k ∈ classes, k.name = child ∧ ∃ b ∈ k.bases, b = parent ∨ withoutSubscript b = parent

/-- **Models are inherited through plain bases.** Whoever inherits from a known model is a model,
at any distance, if each base on the way is written as the name of the class before. A subscript
of a name does not count as the name: heirs through subscripts are models too if and only if each
class with a subscript of a model as a base, or another class of that name, is one anyway. -/
theorem modelNames_plainBases (m : ImportAliases) (o : Outline) :
    (∀ n, n ∈ modelNames m o ↔
      ∃ k ∈ o.classes, IsKnown m k ∧ ReflTransGen (Inherits o.classes) k.name n) ∧
    (∀ n ∈ modelNames m o, ∀ n', ReflTransGen (Inherits o.classes) n n' → n' ∈ modelNames m o) ∧
    ((∀ n ∈ modelNames m o, ∀ n', ReflTransGen (InheritsSubscript o.classes) n n' →
        n' ∈ modelNames m o) ↔
      ∀ k ∈ o.classes, (∃ b ∈ k.bases, withoutSubscript b ∈ modelNames m o) →
        ∃ k' ∈ o.classes, k'.name = k.name ∧ IsModel m o k') := by
  refine ⟨fun n => mem_modelNames_iff, fun n hn n' hchain => ?_, fun h k hk hb => ?_,
    fun h n hn n' hchain => ?_⟩
  · obtain ⟨first, hfirst, hknown, hpath⟩ := mem_modelNames_iff.mp hn
    exact mem_modelNames_iff.mpr ⟨first, hfirst, hknown, hpath.trans hchain⟩
  · obtain ⟨b, hb, hmodel⟩ := hb
    have hstep : InheritsSubscript o.classes (withoutSubscript b) k.name :=
      ⟨k, hk, rfl, b, hb, .inr rfl⟩
    exact mem_modelNames_iff_isModel.mp (h _ hmodel k.name (.single hstep))
  · induction hchain with
    | refl => exact hn
    | tail _ hstep ih =>
      obtain ⟨k, hk, rfl, b, hb, rfl | rfl⟩ := hstep
      · exact mem_modelNames_iff_isModel.mpr ⟨k, hk, rfl, .inr ⟨_, hb, ih⟩⟩
      · exact mem_modelNames_iff_isModel.mpr (h k hk ⟨b, hb, ih⟩)

/-- The heir of a subscript is a known model as well. -/
theorem modelNames_plainBases_alsoKnown :
    let m : ImportAliases := ⟨[("pydantic.BaseModel", "BaseModel")]⟩
    let k (name : String) (bases : List String) : ClassOutline := ⟨name, bases, [], 1, 2, []⟩
    let o : Outline :=
      ⟨[k "Page" ["BaseModel"], k "Users" ["Page[int]", "BaseModel"], k "Staff" ["Users"]], []⟩
    (∀ k ∈ o.classes, (∃ b ∈ k.bases, withoutSubscript b ∈ modelNames m o) →
      ∃ k' ∈ o.classes, k'.name = k.name ∧ IsModel m o k') ∧
    "Page" ∈ modelNames m o ∧ ReflTransGen (InheritsSubscript o.classes) "Page" "Staff" ∧
    "Staff" ∈ modelNames m o := by
  intro m k o
  have heirs : ∀ k ∈ o.classes, (∃ b ∈ k.bases, withoutSubscript b ∈ modelNames m o) →
      ∃ k' ∈ o.classes, k'.name = k.name ∧ IsModel m o k' := by decide
  have hpage : "Page" ∈ modelNames m o := by decide
  have husers : InheritsSubscript o.classes "Page" "Users" :=
    ⟨k "Users" ["Page[int]", "BaseModel"], .tail _ (.head _), rfl, "Page[int]", .head _,
      .inr (by decide)⟩
  have hstaff : InheritsSubscript o.classes "Users" "Staff" :=
    ⟨k "Staff" ["Users"], .tail _ (.tail _ (.head _)), rfl, "Users", .head _, .inl rfl⟩
  have hchain := (ReflTransGen.single husers).tail hstaff
  exact ⟨heirs, hpage, hchain,
    (modelNames_plainBases m o).2.2.mpr heirs "Page" hpage "Staff" hchain⟩

/-- A generic model is told, but not the class that inherits from a subscript of it. -/
theorem modelNames_subscript_ne :
    let m : ImportAliases := ⟨[("pydantic.BaseModel", "BaseModel")]⟩
    let o : Outline := ⟨[⟨"Page", ["BaseModel", "Generic[T]"], [], 6, 7, []⟩,
      ⟨"UserPage", ["Page[int]"], [], 9, 10, []⟩], []⟩
    ¬ ∀ n ∈ modelNames m o, ∀ k ∈ o.classes,
      (∃ b ∈ k.bases, b = n ∨ withoutSubscript b = n) → k.name ∈ modelNames m o := by
  decide

end SourceFacts.DataModel
