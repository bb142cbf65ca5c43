import SourceFacts.Proofs.DataModel.Positions

/-!
# Classes with the name of a model

Models are recognised as classes but told by their names, so that with a model every class of its
name is told (`mem_bySignature`). Whether that adds any depends on the classes of that name alone
(`bySignature_eq_ownModels_iff`). A position goes to the first class of the name on more than one
line, be it a model or not (`get?_bySignature`, `bySignature_namesakes_ne`).
-/

namespace SourceFacts.DataModel

/-- The name and the lines of a class. -/
def declared (k : ClassOutline) : Model := (k.name, k.startLine, k.endLine)

/-- The classes of an outline that are models themselves. -/
def ownModels (m : ImportAliases) (o : Outline) : List Model :=
  (o.classes.filter fun k => IsModel m o k).map declared

/-- The classes of a name on more than one line. -/
def withLines (n : String) (classes : List ClassOutline) : List ClassOutline :=
  classes.filter fun k => k.name == n && k.startLine != k.endLine

variable {m : ImportAliases} {o : Outline} {k : ClassOutline} {n : String}

theorem bySignature_eq (m : ImportAliases) (o : Outline) : bySignature m o =
    (o.classes.filter fun k => k.name ∈ modelNames m o).map declared := by
  simp only [bySignature, List.contains_eq_mem]
  rfl

theorem name_mem_of_isModel (hk : k ∈ o.classes) (h : IsModel m o k) : k.name ∈ modelNames m o :=
  mem_modelNames_iff_isModel.mpr ⟨k, hk, rfl, h⟩

theorem mem_bySignature {d : Model} : d ∈ bySignature m o ↔
    ∃ k ∈ o.classes, declared k = d ∧ ∃ k' ∈ o.classes, k'.name = k.name ∧ IsModel m o k' := by
  simp only [bySignature_eq, List.mem_map, List.mem_filter, decide_eq_true_eq,
    mem_modelNames_iff_isModel]
  constructor
  · rintro ⟨k, ⟨hk, hmodel⟩, hd⟩
    exact ⟨k, hk, hd, hmodel⟩
  · rintro ⟨k, hk, hd, hmodel⟩
    exact ⟨k, ⟨hk, hmodel⟩, hd⟩

/-- Models are among the classes with the name of a model. -/
theorem filter_isModel (m : ImportAliases) (o : Outline) :
    o.classes.filter (fun k => IsModel m o k) =
      (o.classes.filter fun k => k.name ∈ modelNames m o).filter fun k => IsModel m o k := by
  rw [List.filter_filter]
  refine List.filter_congr fun k hk => ?_
  by_cases h : IsModel m o k
  · simp [h, name_mem_of_isModel hk h]
  · simp [h]

theorem ownModels_sublist (m : ImportAliases) (o : Outline) :
    (ownModels m o).Sublist (bySignature m o) := by
  rw [bySignature_eq, ownModels, filter_isModel]
  exact List.filter_sublist.map declared

/-- Only models are told if and only if all classes with the name of a model are models. -/
theorem bySignature_eq_ownModels_iff : bySignature m o = ownModels m o ↔
    ∀ k ∈ o.classes, k.name ∈ modelNames m o → IsModel m o k := by
  rw [bySignature_eq, ownModels, filter_isModel]
  generalize hall : (o.classes.filter fun k => k.name ∈ modelNames m o) = told
  have hiff : told.map declared = (told.filter fun k => IsModel m o k).map declared ↔
      ∀ k ∈ told, IsModel m o k := by
    constructor
    · intro heq
      have hlength := congrArg List.length heq
      rw [List.length_map, List.length_map] at hlength
      simpa using List.length_filter_eq_length_iff.mp hlength.symm
    · intro h
      rw [List.filter_eq_self.mpr (by simpa using h)]
  rw [hiff, ← hall]
  simp only [List.mem_filter, decide_eq_true_eq, and_imp]

/-! ## Positions -/

theorem findSome?_lines?_declared (n : String) (classes : List ClassOutline) :
    (named n (classes.map declared)).findSome? lines? =
      (withLines n classes).head?.bind fun k => lines? (declared k) := by
  induction classes with
  | nil => rfl
  | cons k rest ih =>
    rw [List.map_cons, named_cons, withLines, List.filter_cons]
    by_cases hname : k.name = n
    · by_cases hline : k.startLine = k.endLine
      · simpa [withLines, declared, hname, hline, lines?] using ih
      · simp [declared, hname, hline, lines?]
    · simpa [withLines, declared, hname] using ih

/-- The position of a name goes to the first class of that name on more than one line. -/
theorem get?_bySignature (m : ImportAliases) (o : Outline) (n : String) :
    (ModelPositions.ofList (bySignature m o)).get? n =
      if n ∈ modelNames m o then
        (withLines n o.classes).head?.bind fun k => lines? (declared k)
      else none := by
  rw [ModelPositions.get?_ofList, bySignature_eq, findSome?_lines?_declared]
  by_cases hn : n ∈ modelNames m o
  · have htold : withLines n (o.classes.filter fun k => k.name ∈ modelNames m o) =
        withLines n o.classes := by
      rw [withLines, List.filter_filter, withLines]
      refine List.filter_congr fun k _ => ?_
      by_cases hname : k.name = n <;> simp [hname, hn]
    rw [if_pos hn, htold]
  · have hnone : withLines n (o.classes.filter fun k => k.name ∈ modelNames m o) = [] := by
      rw [withLines, List.filter_filter, List.filter_eq_nil_iff]
      rintro k - h
      simp only [Bool.and_eq_true, beq_iff_eq, decide_eq_true_eq] at h
      exact hn (h.1.1 ▸ h.2)
    rw [if_neg hn, hnone]
    rfl

/-- Where the first class of a name on more than one line is a model, the position is that of the
first model of the name on more than one line. -/
theorem get?_ownModels (h : ∀ k, (withLines n o.classes).head? = some k → IsModel m o k) :
    (ModelPositions.ofList (ownModels m o)).get? n =
      (withLines n o.classes).head?.bind fun k => lines? (declared k) := by
  rw [ModelPositions.get?_ofList, ownModels, findSome?_lines?_declared]
  have hmodels : withLines n (o.classes.filter fun k => IsModel m o k) =
      (withLines n o.classes).filter fun k => IsModel m o k := by
    simp only [withLines, List.filter_filter, Bool.and_comm]
  rw [hmodels]
  cases hall : withLines n o.classes with
  | nil => rfl
  | cons first rest =>
    have hfirst : IsModel m o first := h first (by rw [hall, List.head?_cons])
    rw [List.filter_cons_of_pos (by simpa using hfirst), List.head?_cons, List.head?_cons]

/-- **The name of a model stands for all classes of that name.** A class is told if and only if it,
or another class of its name, is a model itself. So all models are told, and nothing else is if
and only if every class with the name of a model is one. The position of a name is that of the
first class of the name on more than one line, and where that is a model, it is the position that
the models alone would have. -/
theorem bySignature_namesakes (m : ImportAliases) (o : Outline) :
    (∀ d, d ∈ bySignature m o ↔
      ∃ k ∈ o.classes, declared k = d ∧ ∃ k' ∈ o.classes, k'.name = k.name ∧ IsModel m o k') ∧
    (ownModels m o).Sublist (bySignature m o) ∧
    (bySignature m o = ownModels m o ↔
      ∀ k ∈ o.classes, k.name ∈ modelNames m o → IsModel m o k) ∧
    (∀ n, (ModelPositions.ofList (bySignature m o)).get? n =
      if n ∈ modelNames m o then
        (withLines n o.classes).head?.bind fun k => lines? (declared k)
      else none) ∧
    (∀ n ∈ modelNames m o,
      (∀ k, (withLines n o.classes).head? = some k → IsModel m o k) →
      (ModelPositions.ofList (bySignature m o)).get? n =
        (ModelPositions.ofList (ownModels m o)).get? n) := by
  refine ⟨fun _ => mem_bySignature, ownModels_sublist m o, bySignature_eq_ownModels_iff,
    get?_bySignature m o, fun n hn h => ?_⟩
  rw [get?_bySignature, if_pos hn, get?_ownModels h]

/-- A model that is declared twice. -/
theorem bySignature_namesakes_twice :
    let m : ImportAliases := ⟨[("pydantic.BaseModel", "BaseModel")]⟩
    let o : Outline := ⟨[⟨"A", ["BaseModel"], [], 3, 3, []⟩, ⟨"A", ["BaseModel"], [], 5, 8, []⟩,
      ⟨"A", [], [], 9, 12, []⟩], []⟩
    "A" ∈ modelNames m o ∧
      (∀ k, (withLines "A" o.classes).head? = some k → IsModel m o k) ∧
      (ModelPositions.ofList (bySignature m o)).get? "A" =
        (ModelPositions.ofList (ownModels m o)).get? "A" := by
  intro m o
  have hname : "A" ∈ modelNames m o := by decide
  have hfirst : ∀ k, (withLines "A" o.classes).head? = some k → IsModel m o k := by
    intro k hk
    obtain rfl : ⟨"A", ["BaseModel"], [], 5, 8, []⟩ = k := Option.some.inj hk
    decide
  exact ⟨hname, hfirst, (bySignature_namesakes m o).2.2.2.2 "A" hname hfirst⟩

/-- The settings inside a model have the name of a model further on, and take its position. -/
theorem bySignature_namesakes_ne :
    let m : ImportAliases := ⟨[("pydantic.BaseModel", "BaseModel")]⟩
    let o : Outline := ⟨[⟨"User", ["BaseModel"], [], 3, 5, []⟩, ⟨"Config", [], [], 4, 5, []⟩,
      ⟨"Config", ["BaseModel"], [], 7, 8, []⟩], []⟩
    ¬ (∀ d ∈ bySignature m o, ∃ k ∈ o.classes, declared k = d ∧ IsModel m o k) ∧
      (ModelPositions.ofList (bySignature m o)).get? "Config" = some (4, 5) ∧
      (ModelPositions.ofList (ownModels m o)).get? "Config" = some (7, 8) := by
  decide

end SourceFacts.DataModel
