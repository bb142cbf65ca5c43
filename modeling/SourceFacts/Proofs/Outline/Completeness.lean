import SourceFacts.Proofs.Lists
import SourceFacts.Proofs.Outline.Reports

/-!
# What an outline contains

Provided that its query reports each definition once and in source order (`Outline.Reports`), an
outline is complete and lists nothing twice (`Outline.ofPython_complete`).
A class outside of functions has one entry among the classes. A function outside of functions has
one entry, and where it stands is told by the nearest class above it: among the functions if there
is none, and otherwise among the methods of this class, even if others have the same name.

A report leads to an item that depends on the place of the definition only (`Outline.itemAt`). So
each list of an outline consists of the entries of certain places of the tree, and places are told
by their ways (`Syntax.Node.eq_of_way_eq`), as classes are when methods are attached to them.
-/

namespace SourceFacts.Outline

open Syntax (Node Place SourceText)

variable {q : Query} {t : SourceText} {root : Node} {p c : Place}

/-! ## Entries -/

/-- The name that a definition gives. -/
def nameOf (t : SourceText) (n : Node) : String := ((n.child? "name").map t.textOf).getD ""

/-- The entry of a class, without its methods. -/
def classEntry (t : SourceText) (p : Place) : ClassOutline :=
  { classOf t p (nameOf t p.node) none with
    bases := ((p.node.child? "superclasses").map (baseNames t)).getD [] }

/-- The entry of a function. -/
def functionEntry (t : SourceText) (p : Place) : FunctionOutline :=
  functionOf t p (nameOf t p.node)

/-- The entry of a method of a class. -/
def methodEntry (t : SourceText) (c p : Place) : FunctionOutline :=
  { functionEntry t p with
    qualifiedName := nameOf t c.node ++ "." ++ nameOf t p.node
    parentClass := some (nameOf t c.node) }

/-- What the definition at a place contributes. -/
def itemAt (t : SourceText) (p : Place) : Option Item :=
  if p.node.kind = "class_definition" then
    match enclosureOf p.above with
    | .function => none
    | _ => some (.type p.way (classEntry t p))
  else
    match enclosureOf p.above with
    | .module => some (.function (functionEntry t p))
    | .function => none
    | .type c => some (.method c.way (methodEntry t c p))

theorem classOf_eq (t : SourceText) (p : Place) (name : String) (bases : Option Place) :
    classOf t p name bases =
      { classOf t p name none with
        bases := (bases.map (baseNames t ∘ (·.node))).getD [] } := rfl

theorem itemOf_of_tells {m : Query.Match} (h : Tells q m p) : itemOf t q m = itemAt t p := by
  cases h with
  | type name hkind hdef hname hchild hbases =>
    have hnamed : nameOf t p.node = t.textOf name.node := by
      rw [nameOf, hchild, Option.map_some, Option.getD_some]
    have hentry : classOf t p (t.textOf name.node) (m.place? (q.captureIndex? "class.bases")) =
        classEntry t p := by
      rw [classOf_eq t p _ (m.place? _), classEntry, hnamed, ← hbases, Option.map_map]
    cases henclosure : enclosureOf p.above <;>
      simp only [itemOf, itemAt, hdef, hname, hentry, if_pos hkind, henclosure]
  | function name hkind hclass hdef hname hchild =>
    have hother : p.node.kind ≠ "class_definition" := by
      rw [hkind]
      decide
    have hnamed : nameOf t p.node = t.textOf name.node := by
      rw [nameOf, hchild, Option.map_some, Option.getD_some]
    cases henclosure : enclosureOf p.above with
    | module =>
      simp only [itemOf, itemAt, hclass, hdef, hname, if_neg hother, henclosure, functionEntry,
        hnamed]
    | function => simp only [itemOf, itemAt, hclass, hdef, hname, if_neg hother, henclosure]
    | type c =>
      have hqualified : (functionOf t p (t.textOf name.node)).name = t.textOf name.node := rfl
      have hclassName : ((c.node.child? "name").map t.textOf).getD "" = nameOf t c.node := rfl
      simp only [itemOf, itemAt, hclass, hdef, hname, if_neg hother, henclosure, functionEntry,
        methodEntry, hnamed, hqualified, hclassName]

theorem filterMap_of_reports (h : Reports q t root) :
    (q.matchesOf t root).filterMap (itemOf t q) = (definitions root).filterMap (itemAt t) := by
  unfold Reports at h
  generalize q.matchesOf t root = ms at h
  generalize definitions root = ps at h
  induction h with
  | nil => rfl
  | cons hfirst hrest ih =>
    rw [List.filterMap_cons, List.filterMap_cons, itemOf_of_tells hfirst, ih]

/-! ## The places of each list -/

/-- Whether a place has an entry among the classes. -/
def isListedClass (p : Place) : Bool :=
  p.node.kind == "class_definition" &&
    match enclosureOf p.above with
    | .function => false
    | _ => true

/-- Whether a place has an entry among the functions. -/
def isListedFunction (p : Place) : Bool :=
  p.node.kind != "class_definition" &&
    match enclosureOf p.above with
    | .module => true
    | _ => false

/-- Whether a place has an entry among the methods of the class at a way. -/
def isMethodOf (way : List Nat) (p : Place) : Bool :=
  p.node.kind != "class_definition" &&
    match enclosureOf p.above with
    | .type c => c.way == way
    | _ => false

/-- The class of a method; for others, the place itself. -/
def classAbove (p : Place) : Place :=
  match enclosureOf p.above with
  | .type c => c
  | _ => p

theorem itemAt_of_isListedClass (h : isListedClass p = true) :
    itemAt t p = some (.type p.way (classEntry t p)) := by
  simp only [isListedClass, Bool.and_eq_true, beq_iff_eq] at h
  obtain ⟨hkind, henclosure⟩ := h
  rw [itemAt, if_pos hkind]
  cases h : enclosureOf p.above with
  | module => rfl
  | type c => rfl
  | function =>
    rw [h] at henclosure
    cases henclosure

theorem methods_itemAt (t : SourceText) (ps : List Place) (way : List Nat) :
    ((ps.filterMap (itemAt t)).filterMap fun
      | .method w f => if w == way then some f else none
      | _ => none) =
    (ps.filter (isMethodOf way)).map fun p => methodEntry t (classAbove p) p := by
  rw [List.filterMap_filterMap]
  refine Lists.filterMap_eq_map_filter fun p _ => ?_
  by_cases hkind : p.node.kind = "class_definition" <;>
    cases henclosure : enclosureOf p.above <;>
      simp [itemAt, isMethodOf, classAbove, hkind, henclosure]

theorem ofItems_itemAt (t : SourceText) (ps : List Place) :
    ofItems (ps.filterMap (itemAt t)) =
      { classes := (ps.filter isListedClass).map fun c =>
          { classEntry t c with
            methods := (ps.filter (isMethodOf c.way)).map fun p => methodEntry t (classAbove p) p }
        functions := (ps.filter isListedFunction).map (functionEntry t) } := by
  unfold ofItems
  refine congrArg₂ Outline.mk ?_ ?_
  · rw [List.filterMap_filterMap]
    refine Lists.filterMap_eq_map_filter fun c _ => ?_
    by_cases hlisted : isListedClass c = true
    · rw [itemAt_of_isListedClass hlisted, if_pos hlisted]
      exact congrArg (fun methods => some { classEntry t c with methods })
        (methods_itemAt t ps c.way)
    · rw [if_neg hlisted]
      by_cases hkind : c.node.kind = "class_definition" <;>
        cases henclosure : enclosureOf c.above <;>
          simp_all [itemAt, isListedClass]
  · rw [List.filterMap_filterMap]
    refine Lists.filterMap_eq_map_filter fun p _ => ?_
    by_cases hkind : p.node.kind = "class_definition" <;>
      cases henclosure : enclosureOf p.above <;>
        simp [itemAt, isListedFunction, hkind, henclosure]

theorem isMethodOf_iff {way : List Nat} : isMethodOf way p = true ↔
    p.node.kind ≠ "class_definition" ∧ ∃ c, enclosureOf p.above = .type c ∧ c.way = way := by
  rw [isMethodOf, Bool.and_eq_true, bne_iff_ne]
  refine and_congr_right fun _ => ?_
  cases enclosureOf p.above with
  | type c => simp
  | module => simp
  | function => simp

/-- The places with entries among the classes. -/
def listedClasses (root : Node) : List Place := (definitions root).filter isListedClass

/-- The places with entries among the functions. -/
def listedFunctions (root : Node) : List Place := (definitions root).filter isListedFunction

/-- The places with entries among the methods of a class. -/
def listedMethods (root : Node) (c : Place) : List Place :=
  (definitions root).filter (isMethodOf c.way)

theorem ofPython_of_reports (h : Reports q t root) : ofPython q t root =
    { classes := (listedClasses root).map fun c =>
        { classEntry t c with
          methods := (listedMethods root c).map fun p => methodEntry t (classAbove p) p }
      functions := (listedFunctions root).map (functionEntry t) } := by
  rw [ofPython, filterMap_of_reports h, ofItems_itemAt]
  rfl

/-! ## What is above a definition -/

/-- No function is above a place. -/
def OutsideFunctions (p : Place) : Prop := ∀ n ∈ p.ancestors, n.kind ≠ "function_definition"

/-- The nearest class on a way. -/
def nearestClass? : List (Node × Nat) → Option Place
  | [] => none
  | (n, _) :: above => if n.kind = "class_definition" then some ⟨n, above⟩ else nearestClass? above

/-- Outside of functions, what encloses a place is the nearest class. -/
theorem enclosureOf_of_outsideFunctions (h : OutsideFunctions p) :
    enclosureOf p.above =
      match nearestClass? p.above with
      | some c => .type c
      | none => .module := by
  obtain ⟨node, above⟩ := p
  simp only [OutsideFunctions, Place.ancestors, List.forall_mem_map] at h ⊢
  induction above with
  | nil => rfl
  | cons a above ih =>
    obtain ⟨n, i⟩ := a
    have hn : n.kind ≠ "function_definition" := h (n, i) List.mem_cons_self
    have habove := ih fun b hb => h b (List.mem_cons_of_mem _ hb)
    by_cases hclass : n.kind = "class_definition"
    · simp [enclosureOf, nearestClass?, hclass]
    · simp only [enclosureOf, nearestClass?, beq_iff_eq, if_neg hclass, if_neg hn, habove]

theorem class_of_enclosureOf {above : List (Node × Nat)} (h : enclosureOf above = .type c) :
    c.node.kind = "class_definition" ∧ ∃ i, (c.node, i) :: c.above <:+ above := by
  induction above with
  | nil => cases h
  | cons a above ih =>
    obtain ⟨n, i⟩ := a
    by_cases hclass : n.kind = "class_definition"
    · simp only [enclosureOf, beq_iff_eq, if_pos hclass, Enclosure.type.injEq] at h
      subst h
      exact ⟨hclass, i, List.suffix_rfl⟩
    · by_cases hfunction : n.kind = "function_definition"
      · simp only [enclosureOf, beq_iff_eq, if_neg hclass, if_pos hfunction] at h
        cases h
      · simp only [enclosureOf, beq_iff_eq, if_neg hclass, if_neg hfunction] at h
        obtain ⟨hkind, j, hj⟩ := ih h
        exact ⟨hkind, j, hj.trans (List.suffix_cons _ above)⟩

theorem mem_places_of_enclosureOf (hp : p ∈ root.places) (h : enclosureOf p.above = .type c) :
    c ∈ root.places := by
  obtain ⟨-, i, hi⟩ := class_of_enclosureOf h
  exact Node.mem_places_of_above hp hi

/-- A definition is outside of functions if what encloses it most closely is no function, and is
itself outside of functions. -/
theorem outsideFunctions_iff : OutsideFunctions p ↔
    match enclosureOf p.above with
    | .module => True
    | .function => False
    | .type c => OutsideFunctions c := by
  obtain ⟨node, above⟩ := p
  induction above with
  | nil => simp [OutsideFunctions, Place.ancestors, enclosureOf]
  | cons a above ih =>
    obtain ⟨n, i⟩ := a
    have hcons : OutsideFunctions ⟨node, (n, i) :: above⟩ ↔
        n.kind ≠ "function_definition" ∧ OutsideFunctions ⟨node, above⟩ := by
      simp [OutsideFunctions, Place.ancestors]
    rw [hcons]
    by_cases hclass : n.kind = "class_definition"
    · have hother : n.kind ≠ "function_definition" := by
        rw [hclass]
        decide
      simp only [enclosureOf, beq_iff_eq, if_pos hclass]
      exact and_iff_right hother
    · by_cases hfunction : n.kind = "function_definition"
      · simp [enclosureOf, hfunction]
      · simp only [enclosureOf, beq_iff_eq, if_neg hclass, if_neg hfunction]
        exact (and_iff_right hfunction).trans ih

theorem outsideFunctions_of_enclosureOf (hp : OutsideFunctions p)
    (h : enclosureOf p.above = .type c) : OutsideFunctions c := by
  rw [outsideFunctions_iff, h] at hp
  exact hp

/-! ## Completeness -/

/-- An outline consists of the entries of certain places of a tree, which are all that should be
in it. -/
structure Complete (t : SourceText) (root : Node) (o : Outline) (classes functions : List Place)
    (methods : Place → List Place) : Prop where
  classes_eq : o.classes = classes.map fun c =>
    { classEntry t c with methods := (methods c).map (methodEntry t c) }
  functions_eq : o.functions = functions.map (functionEntry t)
  /-- Methods are named after their class, functions by themselves. -/
  class_names : ∀ c ∈ o.classes, ∀ f ∈ c.methods,
    f.parentClass = some c.name ∧ f.qualifiedName = c.name ++ "." ++ f.name
  function_names : ∀ f ∈ o.functions, f.parentClass = none ∧ f.qualifiedName = f.name
  kinds : (∀ p ∈ classes, p.node.kind = "class_definition") ∧
    (∀ p ∈ functions, p.node.kind = "function_definition") ∧
    ∀ c, ∀ p ∈ methods c, p.node.kind = "function_definition"
  /-- Entries stand in source order. -/
  sublists : classes.Sublist root.places ∧ functions.Sublist root.places ∧
    ∀ c, (methods c).Sublist root.places
  /-- No place has two entries. -/
  nodup : (classes ++ functions ++ classes.flatMap methods).Nodup
  mem_classes : ∀ p ∈ root.places, p.node.kind = "class_definition" → OutsideFunctions p →
    p ∈ classes
  mem_functions : ∀ p ∈ root.places, p.node.kind = "function_definition" → OutsideFunctions p →
    nearestClass? p.above = none → p ∈ functions
  mem_methods : ∀ p ∈ root.places, p.node.kind = "function_definition" → OutsideFunctions p →
    ∀ c, nearestClass? p.above = some c → c ∈ classes ∧ p ∈ methods c

theorem mem_definitions : p ∈ definitions root ↔ p ∈ root.places ∧ isDefinition p.node = true :=
  List.mem_filter

theorem mem_places_of_listed {P : Place → Bool} (hp : p ∈ (definitions root).filter P) :
    p ∈ root.places :=
  (mem_definitions.mp (List.mem_of_mem_filter hp)).1

/-- A method is listed for the class that encloses it, and for no other. -/
theorem enclosureOf_of_listedMethod (hc : c ∈ root.places) (hp : p ∈ listedMethods root c) :
    enclosureOf p.above = .type c := by
  obtain ⟨-, d, hd, hway⟩ := isMethodOf_iff.mp (List.mem_filter.mp hp).2
  have hplace : d ∈ root.places := mem_places_of_enclosureOf (mem_places_of_listed hp) hd
  rw [hd, Node.eq_of_way_eq hplace hc hway]

theorem kind_of_listedClass (hp : p ∈ listedClasses root) :
    p.node.kind = "class_definition" := by
  have hlisted := (List.mem_filter.mp hp).2
  simp only [isListedClass, Bool.and_eq_true, beq_iff_eq] at hlisted
  exact hlisted.1

theorem kind_of_mem_definitions (hp : p ∈ definitions root)
    (hother : p.node.kind ≠ "class_definition") : p.node.kind = "function_definition" := by
  have hdefinition := (mem_definitions.mp hp).2
  rw [isDefinition, Bool.or_eq_true, beq_iff_eq, beq_iff_eq] at hdefinition
  exact hdefinition.resolve_right hother

theorem notClass_of_listedFunction (hp : p ∈ listedFunctions root) :
    p.node.kind ≠ "class_definition" ∧ ∀ c, enclosureOf p.above ≠ .type c := by
  have hlisted := (List.mem_filter.mp hp).2
  simp only [isListedFunction, Bool.and_eq_true, bne_iff_ne] at hlisted
  refine ⟨hlisted.1, fun c hc => ?_⟩
  rw [hc] at hlisted
  cases hlisted.2

theorem nodup_definitions (root : Node) : (definitions root).Nodup :=
  (Node.nodup_places root).filter _

theorem nodup_methods (root : Node) :
    ((listedClasses root).flatMap (listedMethods root)).Nodup := by
  refine List.nodup_flatMap.mpr ⟨fun c _ => (nodup_definitions root).filter _, ?_⟩
  -- A place that is a method of two classes would be enclosed by both.
  have hclasses : (listedClasses root).Nodup := (nodup_definitions root).filter _
  refine hclasses.pairwise_of_forall_ne fun c hc d hd hne => ?_
  intro p hpc hpd
  have henclosure := enclosureOf_of_listedMethod (mem_places_of_listed hc) hpc
  rw [enclosureOf_of_listedMethod (mem_places_of_listed hd) hpd] at henclosure
  exact hne (Enclosure.type.inj henclosure).symm

/-- Kind and enclosure tell classes, functions and methods apart. -/
theorem nodup_entries (root : Node) : (listedClasses root ++ listedFunctions root ++
    (listedClasses root).flatMap (listedMethods root)).Nodup := by
  rw [List.nodup_append, List.nodup_append]
  refine ⟨⟨(nodup_definitions root).filter _, (nodup_definitions root).filter _, ?_⟩,
    nodup_methods root, ?_⟩
  · rintro p hp _ hp' rfl
    exact (notClass_of_listedFunction hp').1 (kind_of_listedClass hp)
  · rintro p hp _ hp' rfl
    obtain ⟨c, -, hmethod⟩ := List.mem_flatMap.mp hp'
    obtain ⟨hkind, d, hd, -⟩ := isMethodOf_iff.mp (List.mem_filter.mp hmethod).2
    rcases List.mem_append.mp hp with hclass | hfunction
    · exact hkind (kind_of_listedClass hclass)
    · exact (notClass_of_listedFunction hfunction).2 d hd

theorem mem_listedClasses (hp : p ∈ root.places) (hkind : p.node.kind = "class_definition")
    (houtside : OutsideFunctions p) : p ∈ listedClasses root := by
  refine List.mem_filter.mpr ⟨mem_definitions.mpr ⟨hp, ?_⟩, ?_⟩
  · rw [isDefinition, hkind]
    decide
  · rw [isListedClass, enclosureOf_of_outsideFunctions houtside, hkind]
    cases nearestClass? p.above <;> rfl

theorem mem_listedFunctions (hp : p ∈ root.places)
    (hkind : p.node.kind = "function_definition") (houtside : OutsideFunctions p)
    (hnone : nearestClass? p.above = none) : p ∈ listedFunctions root := by
  refine List.mem_filter.mpr ⟨mem_definitions.mpr ⟨hp, ?_⟩, ?_⟩
  · rw [isDefinition, hkind]
    decide
  · rw [isListedFunction, enclosureOf_of_outsideFunctions houtside, hnone, hkind]
    decide

theorem mem_listedMethods (hp : p ∈ root.places) (hkind : p.node.kind = "function_definition")
    (houtside : OutsideFunctions p) (hc : nearestClass? p.above = some c) :
    c ∈ listedClasses root ∧ p ∈ listedMethods root c := by
  have henclosure : enclosureOf p.above = .type c := by
    rw [enclosureOf_of_outsideFunctions houtside, hc]
  refine ⟨mem_listedClasses (mem_places_of_enclosureOf hp henclosure)
    (class_of_enclosureOf henclosure).1 (outsideFunctions_of_enclosureOf houtside henclosure), ?_⟩
  refine List.mem_filter.mpr ⟨mem_definitions.mpr ⟨hp, ?_⟩, ?_⟩
  · rw [isDefinition, hkind]
    decide
  · refine isMethodOf_iff.mpr ⟨?_, c, henclosure, rfl⟩
    rw [hkind]
    decide

theorem entries_of_reports (h : Reports q t root) : ofPython q t root =
    { classes := (listedClasses root).map fun c =>
        { classEntry t c with methods := (listedMethods root c).map (methodEntry t c) }
      functions := (listedFunctions root).map (functionEntry t) } := by
  rw [ofPython_of_reports h]
  refine congrArg (Outline.mk · _) (List.map_congr_left fun c hc => ?_)
  have hentries : (listedMethods root c).map (fun p => methodEntry t (classAbove p) p) =
      (listedMethods root c).map (methodEntry t c) := by
    refine List.map_congr_left fun p hp => ?_
    rw [classAbove, enclosureOf_of_listedMethod (mem_places_of_listed hc) hp]
  exact congrArg (fun methods => { classEntry t c with methods }) hentries

/-- **What an outline contains.** Where the definitions of a tree are reported, each of them once
and in source order, the outline is complete and lists nothing twice. -/
theorem ofPython_complete (q : Query) (t : SourceText) (root : Node) (h : Reports q t root) :
    ∃ classes functions methods,
      Complete t root (ofPython q t root) classes functions methods := by
  have hsublist : ∀ P : Place → Bool, ((definitions root).filter P).Sublist root.places :=
    fun P => List.filter_sublist.trans List.filter_sublist
  rw [entries_of_reports h]
  refine ⟨listedClasses root, listedFunctions root, listedMethods root, ?_⟩
  exact {
    classes_eq := rfl
    functions_eq := rfl
    class_names := by
      simp only [List.forall_mem_map]
      exact fun c _ p _ => ⟨rfl, rfl⟩
    function_names := by
      simp only [List.forall_mem_map]
      exact fun p _ => ⟨rfl, rfl⟩
    kinds := ⟨fun p => kind_of_listedClass,
      fun p hp => kind_of_mem_definitions (List.mem_of_mem_filter hp)
        (notClass_of_listedFunction hp).1,
      fun c p hp => kind_of_mem_definitions (List.mem_of_mem_filter hp)
        (isMethodOf_iff.mp (List.mem_filter.mp hp).2).1⟩
    sublists := ⟨hsublist _, hsublist _, fun c => hsublist _⟩
    nodup := nodup_entries root
    mem_classes := fun p => mem_listedClasses
    mem_functions := fun p => mem_listedFunctions
    mem_methods := fun p hp hkind houtside c => mem_listedMethods hp hkind houtside }

/-- A file with two classes of the same name, and its tree. -/
def sameNamedClasses : SourceText × Node :=
  let t := SourceText.ofString "class A:\n def f(): pass\nclass A(B):\n def g(): pass"
  let function (start stop : Nat) : Node :=
    ⟨"function_definition", true, none, t.span start stop, [
      t.leaf "def" false start (start + 3),
      (t.leaf "identifier" true (start + 4) (start + 5)).withRole "name",
      (t.leaf "parameters" true (start + 5) (start + 7)).withRole "parameters",
      t.leaf ":" false (start + 7) (start + 8),
      (t.leaf "block" true (start + 9) stop).withRole "body"]⟩
  let body (start stop : Nat) : Node :=
    ⟨"block", true, some "body", t.span start stop, [function start stop]⟩
  (t, ⟨"module", true, none, t.span 0 50, [
    ⟨"class_definition", true, none, t.span 0 23, [
      t.leaf "class" false 0 5,
      (t.leaf "identifier" true 6 7).withRole "name",
      t.leaf ":" false 7 8,
      body 10 23]⟩,
    ⟨"class_definition", true, none, t.span 24 50, [
      t.leaf "class" false 24 29,
      (t.leaf "identifier" true 30 31).withRole "name",
      ⟨"argument_list", true, some "superclasses", t.span 31 34, [
        t.leaf "(" false 31 32, t.leaf "identifier" true 32 33, t.leaf ")" false 33 34]⟩,
      t.leaf ":" false 34 35,
      body 37 50]⟩]⟩)

theorem ofPython_complete_sameNames :
    Reports compiledQuery sameNamedClasses.1 sameNamedClasses.2 ∧
      ∃ classes functions methods, Complete sameNamedClasses.1 sameNamedClasses.2
        (ofPython compiledQuery sameNamedClasses.1 sameNamedClasses.2) classes functions
        methods := by
  have hreports : Reports compiledQuery sameNamedClasses.1 sameNamedClasses.2 :=
    reports_of_shaped _ _ (by decide +kernel)
  exact ⟨hreports, ofPython_complete _ _ _ hreports⟩

example : (ofPython compiledQuery sameNamedClasses.1 sameNamedClasses.2).classes.map
    (fun c => (c.name, c.bases, c.methods.map (·.qualifiedName))) =
      [("A", [], ["A.f"]), ("A", ["B"], ["A.g"])] := by
  decide +kernel

end SourceFacts.Outline
