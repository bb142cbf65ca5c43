import SourceFacts.Proofs.Outline.Origins

/-!
# What is local to a function

A definition is local if a function is above it, however far. An outline looks no further than to
what encloses a definition most closely, so it leaves out what a function encloses in this way and
nothing else (`Outline.ofPython_local`). No function with an entry of its own is local, and a
method is local just when its class is. A class is local with an entry if a class encloses it most
closely that is local itself: the class in a class in a function is listed, with its methods,
though the class that it is in is not.
-/

namespace SourceFacts.Outline

open Syntax (Node Place SourceText)

variable {q : Query} {t : SourceText} {root : Node} {p c : Place}

/-- No entry of an outline comes from a definition that is local to a function. -/
def NothingLocal (q : Query) (t : SourceText) (root : Node) : Prop :=
  ∀ p ∈ outlinedClasses q t root ++ outlinedFunctions q t root ++
    (outlinedClasses q t root).flatMap (outlinedMethods q t root), OutsideFunctions p

instance (p : Place) : Decidable (OutsideFunctions p) :=
  inferInstanceAs (Decidable (∀ n ∈ p.ancestors, _))

instance (q : Query) (t : SourceText) (root : Node) : Decidable (NothingLocal q t root) :=
  inferInstanceAs (Decidable (∀ p ∈ _, _))

theorem outsideFunctions_of_outlinedFunctions (hp : p ∈ outlinedFunctions q t root) :
    OutsideFunctions p := by
  have hmodule := Enclosure.isModule_iff.mp (List.mem_filter.mp hp).2
  rw [outsideFunctions_iff, hmodule]
  trivial

/-- A method is local just when its class is. -/
theorem outsideFunctions_iff_of_outlinedMethods (hc : c ∈ root.places)
    (hp : p ∈ outlinedMethods q t root c) : OutsideFunctions p ↔ OutsideFunctions c := by
  rw [outsideFunctions_iff, enclosureOf_of_mem_outlinedMethods hc hp]

theorem mem_places_of_outlinedClasses (hc : c ∈ outlinedClasses q t root) : c ∈ root.places :=
  mem_places_of_reportedClasses (List.mem_of_mem_filter hc)

/-- A reported class has an entry if it is not local, or is in a class that is local. -/
theorem mem_outlinedClasses_iff (hc : c ∈ reportedClasses q t root) :
    c ∈ outlinedClasses q t root ↔
      OutsideFunctions c ∨ ∃ d, enclosureOf c.above = .type d ∧ ¬ OutsideFunctions d := by
  rw [outlinedClasses, List.mem_filter, and_iff_right hc, outsideFunctions_iff]
  cases enclosureOf c.above with
  | module => simp [Enclosure.isFunction]
  | function => simp [Enclosure.isFunction]
  | type d => simp [Enclosure.isFunction, Classical.em]

/-- Methods are as local as their classes, so classes are all that matters. -/
theorem nothingLocal_iff : NothingLocal q t root ↔
    ∀ c ∈ reportedClasses q t root, ∀ d, enclosureOf c.above = .type d → OutsideFunctions d := by
  constructor
  · intro h c hc d hd
    by_contra hlocal
    have hlisted := (mem_outlinedClasses_iff hc).mpr (Or.inr ⟨d, hd, hlocal⟩)
    have houtside := h c (List.mem_append_left _ (List.mem_append_left _ hlisted))
    exact hlocal (outsideFunctions_of_enclosureOf houtside hd)
  · intro h
    have hclasses : ∀ c ∈ outlinedClasses q t root, OutsideFunctions c := by
      intro c hc
      have hreported := List.mem_of_mem_filter hc
      rcases (mem_outlinedClasses_iff hreported).mp hc with houtside | ⟨d, hd, hlocal⟩
      · exact houtside
      · exact absurd (h c hreported d hd) hlocal
    intro p hp
    rcases List.mem_append.mp hp with hp | hp
    · rcases List.mem_append.mp hp with hclass | hfunction
      · exact hclasses p hclass
      · exact outsideFunctions_of_outlinedFunctions hfunction
    · obtain ⟨c, hc, hmethod⟩ := List.mem_flatMap.mp hp
      exact (outsideFunctions_iff_of_outlinedMethods (mem_places_of_outlinedClasses hc)
        hmethod).mpr (hclasses c hc)

theorem reportedClasses_of_reports (h : Reports q t root) :
    reportedClasses q t root = (definitions root).filter (·.node.kind == "class_definition") := by
  unfold Reports at h
  unfold reportedClasses
  generalize q.matchesOf t root = ms at h
  generalize definitions root = ps at h
  induction h with
  | nil => rfl
  | cons hfirst hrest ih =>
    rw [List.filterMap_cons, List.filter_cons, ih]
    cases hfirst with
    | type name hkind hdef hname hchild hbases => simp [classAt?, hdef, hname, hkind]
    | function name hkind hclass hdef hname hchild => simp [classAt?, hclass, hkind]

/-- **What is local to a function.** Entries come from reported definitions. No function with an
entry of its own is local, and a method is local just when its class is. A reported class has an
entry unless it is local without being in a class that is. So nothing local is listed just when no
class is reported in a class that is local; where the definitions of the tree are reported, just
when there is no such class in the tree. -/
theorem ofPython_local (q : Query) (t : SourceText) (root : Node) :
    ComesFrom t (ofPython q t root) (outlinedClasses q t root) (outlinedFunctions q t root)
        (outlinedMethods q t root) ∧
      (∀ p ∈ outlinedFunctions q t root, OutsideFunctions p) ∧
      (∀ c ∈ outlinedClasses q t root, ∀ p ∈ outlinedMethods q t root c,
        OutsideFunctions p ↔ OutsideFunctions c) ∧
      (∀ c ∈ reportedClasses q t root, c ∈ outlinedClasses q t root ↔
        OutsideFunctions c ∨ ∃ d, enclosureOf c.above = .type d ∧ ¬ OutsideFunctions d) ∧
      (NothingLocal q t root ↔ ∀ c ∈ reportedClasses q t root, ∀ d,
        enclosureOf c.above = .type d → OutsideFunctions d) ∧
      (Reports q t root → (NothingLocal q t root ↔ ∀ c ∈ root.places,
        c.node.kind = "class_definition" → ∀ d, enclosureOf c.above = .type d →
          OutsideFunctions d)) := by
  refine ⟨ofPython_comesFrom q t root, fun p => outsideFunctions_of_outlinedFunctions,
    fun c hc p => outsideFunctions_iff_of_outlinedMethods (mem_places_of_outlinedClasses hc),
    fun c => mem_outlinedClasses_iff, nothingLocal_iff, fun h => ?_⟩
  have hreported : ∀ c, c ∈ reportedClasses q t root ↔
      c ∈ root.places ∧ c.node.kind = "class_definition" := by
    intro c
    rw [reportedClasses_of_reports h, List.mem_filter, mem_definitions, beq_iff_eq, and_assoc]
    refine and_congr_right fun _ => and_iff_right_of_imp fun hkind => ?_
    rw [isDefinition, hkind]
    decide
  rw [nothingLocal_iff]
  simp only [hreported, and_imp]

/-- A file with a class in a class in a function, and its tree. -/
def classInLocalClass : SourceText × Node :=
  let t := SourceText.ofString "def f():\n class A:\n  class B:\n   def m(): pass"
  let name (start : Nat) : Node := (t.leaf "identifier" true start (start + 1)).withRole "name"
  let type (start : Nat) (body : Node) : Node :=
    ⟨"class_definition", true, none, t.span start 46, [
      t.leaf "class" false start (start + 5),
      name (start + 6),
      t.leaf ":" false (start + 7) (start + 8),
      ⟨"block", true, some "body", body.span, [body]⟩]⟩
  let function (start : Nat) (body : Node) : Node :=
    ⟨"function_definition", true, none, t.span start 46, [
      t.leaf "def" false start (start + 3),
      name (start + 4),
      (t.leaf "parameters" true (start + 5) (start + 7)).withRole "parameters",
      t.leaf ":" false (start + 7) (start + 8),
      ⟨"block", true, some "body", body.span, [body]⟩]⟩
  let tree := function 0 (type 10 (type 21 (function 33 (t.leaf "pass_statement" true 42 46))))
  (t, ⟨"module", true, none, t.span 0 46, [tree]⟩)

/-- The class in a local class is listed, and so are its methods. -/
theorem ofPython_local_ne :
    Reports compiledQuery classInLocalClass.1 classInLocalClass.2 ∧
      (ofPython compiledQuery classInLocalClass.1 classInLocalClass.2).classes.map
        (fun c => (c.name, c.methods.map (·.qualifiedName))) = [("B", ["B.m"])] ∧
      (ofPython compiledQuery classInLocalClass.1 classInLocalClass.2).functions.map (·.name) =
        ["f"] ∧
      ¬ NothingLocal compiledQuery classInLocalClass.1 classInLocalClass.2 :=
  have hrun : shaped classInLocalClass.2 = true ∧ _ ∧ _ ∧ _ := by decide +kernel
  ⟨reports_of_shaped _ _ hrun.1, hrun.2⟩

end SourceFacts.Outline
