import SourceFacts.Proofs.Outline.Query
import SourceFacts.Proofs.Query.Walk
import SourceFacts.Proofs.Syntax.Places

/-!
# What the query for outlines reports

The compiled query for outlines reports the definitions of a tree, each of them once and in source
order, if the tree is shaped as the grammar has it (`Outline.reports_of_shaped`): the name of a
definition is an identifier in the role of a name, the base classes of a class are an argument
list behind the name, and no definition stands before them.

At most one definition is under way at a time. While its name is to come there is one attempt at
it, and while base classes may come there are two, one with and one without them. These attempts
rest while anything else is walked (`Outline.tree_of_rests`). The name of a function completes its
match; the base classes of a class complete its match, or its last child, which is its body. So
every definition is found before those in its body.
-/

namespace SourceFacts.Outline

open Syntax (Node Place SourceText)
open Query (Attempt Site Walk Step)

deriving instance ReflBEq, LawfulBEq for Syntax.Span

deriving instance ReflBEq, LawfulBEq for Query.Target

variable {x : Site} {p name : Place} {n : Node} {d i : Nat} {found : List Query.Match}
  {above : List (Node × Nat)} {later rest : List Node} {as : List Attempt}

/-! ## Reports -/

/-- The definitions of a tree with the given ancestors. -/
def definitionsFrom (above : List (Node × Nat)) (n : Node) : List Place :=
  (n.placesFrom above).filter fun p => isDefinition p.node

/-- The definitions in the children of a node, from the child at a position on. -/
def definitionsOfAll (parent : Node) (above : List (Node × Nat)) (i : Nat) (ns : List Node) :
    List Place :=
  (Node.placesOfAll parent above i ns).filter fun p => isDefinition p.node

theorem definitionsFrom_of_isDefinition (hn : isDefinition n = true) :
    definitionsFrom above n = ⟨n, above⟩ :: definitionsOfAll n above 0 n.children := by
  rw [definitionsFrom, Node.placesFrom_eq, List.filter_cons, if_pos hn, definitionsOfAll]

theorem definitionsFrom_of_not_isDefinition (hn : isDefinition n = false) :
    definitionsFrom above n = definitionsOfAll n above 0 n.children := by
  rw [definitionsFrom, Node.placesFrom_eq, List.filter_cons, if_neg (by simp [hn]),
    definitionsOfAll]

@[simp] theorem definitionsOfAll_nil : definitionsOfAll n above i [] = [] := by
  rw [definitionsOfAll, Node.placesOfAll, List.filter_nil]

theorem definitionsOfAll_cons {parent : Node} :
    definitionsOfAll parent above i (n :: rest) =
      definitionsFrom ((parent, i) :: above) n ++ definitionsOfAll parent above (i + 1) rest := by
  rw [definitionsOfAll, Node.placesOfAll, List.filter_append, definitionsFrom, definitionsOfAll]

/-- The definitions of a tree, in source order. -/
def definitions (root : Node) : List Place := definitionsFrom [] root

/-- A match tells a definition: it has captured the definition and its name and, of a class, what
stands in the role of its base classes. -/
inductive Tells (q : Query) (m : Query.Match) (p : Place) : Prop
  | type (name : Place) (hkind : p.node.kind = "class_definition")
      (hdef : m.place? (q.captureIndex? "class.def") = some p)
      (hname : m.place? (q.captureIndex? "class.name") = some name)
      (hchild : p.node.child? "name" = some name.node)
      (hbases : (m.place? (q.captureIndex? "class.bases")).map (·.node) =
        p.node.child? "superclasses")
  | function (name : Place) (hkind : p.node.kind = "function_definition")
      (hclass : m.place? (q.captureIndex? "class.def") = none)
      (hdef : m.place? (q.captureIndex? "fn.def") = some p)
      (hname : m.place? (q.captureIndex? "fn.name") = some name)
      (hchild : p.node.child? "name" = some name.node)

/-- A query reports the definitions of a tree: each of them once, in source order. -/
def Reports (q : Query) (t : SourceText) (root : Node) : Prop :=
  List.Forall₂ (Tells q) (q.matchesOf t root) (definitions root)

/-! ## Shapes -/

mutual

/-- Whether no definition is in a tree. -/
def plain : Node → Bool
  | ⟨kind, named, role, span, children⟩ =>
    !isDefinition ⟨kind, named, role, span, children⟩ && plainAll children

/-- Whether no definition is in any of the trees. -/
def plainAll : List Node → Bool
  | [] => true
  | n :: rest => plain n && plainAll rest

end

/-- Whether a child can be the name of a definition. -/
def isName (n : Node) : Bool :=
  (Query.Target.kind "identifier" true).accepts n && n.role == some "name" && plain n

/-- Whether a child can be the base classes of a class. -/
def isBases (n : Node) : Bool :=
  (Query.Target.kind "argument_list" true).accepts n && n.role == some "superclasses" && plain n

/-- Whether a child has nothing to do with an outline. -/
def isOther (n : Node) : Bool :=
  n.role != some "name" && n.role != some "superclasses" && plain n

theorem role_and_plain_of_isName (h : isName n = true) :
    n.role = some "name" ∧ plain n = true := by
  simp only [isName, Bool.and_eq_true, beq_iff_eq] at h
  exact ⟨h.1.2, h.2⟩

theorem role_and_plain_of_isBases (h : isBases n = true) :
    n.role = some "superclasses" ∧ plain n = true := by
  simp only [isBases, Bool.and_eq_true, beq_iff_eq] at h
  exact ⟨h.1.2, h.2⟩

theorem roles_and_plain_of_isOther (h : isOther n = true) :
    n.role ≠ some "name" ∧ n.role ≠ some "superclasses" ∧ plain n = true := by
  simp only [isOther, Bool.and_eq_true, bne_iff_ne] at h
  exact ⟨h.1.1, h.1.2, h.2⟩

/-- What is to come among the children of a node. -/
inductive Stage where
  | functionName
  | className
  /-- The base classes of a class, if it has any. -/
  | bases
  | body

mutual

/-- Whether the definitions in a tree have the parts that they should have. -/
def shaped : Node → Bool
  | ⟨kind, named, _, _, children⟩ =>
    if kind == "function_definition" then named && shapedFrom .functionName children
    else if kind == "class_definition" then named && shapedFrom .className children
    else shapedFrom .body children

/-- Whether the children of a node, from one of them on, are as they should be. -/
def shapedFrom : Stage → List Node → Bool
  | .body, [] => true
  | .functionName, [] | .className, [] | .bases, [] => false
  | .functionName, n :: rest =>
    if isName n then rest.all (·.role != some "name") && shapedFrom .body rest
    else isOther n && shapedFrom .functionName rest
  | .className, n :: rest =>
    if isName n then rest.all (·.role != some "name") && shapedFrom .bases rest
    else isOther n && shapedFrom .className rest
  | .bases, n :: rest =>
    if isBases n then rest.all (·.role != some "superclasses") && shapedFrom .body rest
    else if rest.isEmpty then
      !isDefinition n && n.role != some "superclasses" && shaped n
    else isOther n && shapedFrom .bases rest
  | .body, n :: rest => shaped n && shapedFrom .body rest

end

/-! ## Attempts under way -/

/-- The attempt at a function, before its name. -/
def functionAttempt (p : Place) (d : Nat) : Attempt :=
  { step := 1, pattern := 0, base := d, captures := [⟨1, p⟩], pressed := false, waits := false,
    needsParent := false }

/-- The attempt at a class, before its name. -/
def classAttempt (p : Place) (d : Nat) : Attempt :=
  { step := 4, pattern := 1, base := d, captures := [⟨4, p⟩], pressed := false, waits := false,
    needsParent := false }

/-- The attempts at a class after its name, with base classes and without. -/
def basesAttempts (p name : Place) (d : Nat) : List Attempt :=
  [5, 6].map fun step =>
    { step, pattern := 1, base := d, captures := [⟨4, p⟩, ⟨2, name⟩], pressed := false,
      waits := true, needsParent := false }

/-- Attempts that are complete, or wait for a child in some role of the node at a depth; they
settle to what they are. -/
structure Rests (d : Nat) (as : List Attempt) : Prop where
  base : ∀ a ∈ as, a.base = d ∧ a.pressed = false
  step : ∀ a ∈ as, ∃ s, compiledQuery.steps[a.step]? = some s ∧ ∀ e, s.depth = some e →
    e = 1 ∧ s.immediate = false ∧ ∃ role ∈ ["name", "superclasses"], s.role = some role
  settle : Attempt.settle compiledQuery.steps (as.map fun a => { a with waits := false }).length
    (as.map fun a => { a with waits := false }) = (as, [])

theorem rests_nil : Rests d [] where
  base := by simp
  step := by simp
  settle := rfl

theorem rests_functionAttempt : Rests d [functionAttempt p d] where
  base := by simp [functionAttempt]
  step := by simp [functionAttempt, compiledQuery, Step.plain]
  settle := rfl

theorem rests_classAttempt : Rests d [classAttempt p d] where
  base := by simp [classAttempt]
  step := by simp [classAttempt, compiledQuery, Step.plain]
  settle := rfl

theorem rests_basesAttempts : Rests d (basesAttempts p name d) where
  base := by simp [basesAttempts]
  step := by simp [basesAttempts, compiledQuery, Step.plain, Step.finish]
  settle := by
    simp [basesAttempts, Attempt.settle, Attempt.contend, Attempt.containment,
      Attempt.sameCapture, Attempt.isDone, compiledQuery, Step.plain]

/-! ## Entering and leaving -/

theorem entries_of_not_isDefinition (hn : isDefinition n = false) (named : Bool) :
    (compiledQuery.entries.filter fun e =>
      (((compiledQuery.steps[e.step]?).map (·.target)).getD .never) == .kind n.kind named) =
        [] := by
  simp only [isDefinition, Bool.or_eq_false_iff, beq_eq_false_iff_ne] at hn
  simp [compiledQuery, Step.plain, Ne.symm hn.1, Ne.symm hn.2]

/-- No attempt starts at a node that is not a definition. -/
theorem enter_of_not_isDefinition {bs cs : List Attempt} {ms : List Query.Match}
    (hx : isDefinition x.place.node = false)
    (henter : as.flatMap (Attempt.enter compiledQuery.steps x) = bs)
    (hsettle : Attempt.settle compiledQuery.steps bs.length bs = (cs, ms)) :
    (⟨as, found⟩ : Walk).enter compiledQuery x = ⟨cs, ms.reverse ++ found⟩ := by
  have hstart : (⟨as, found⟩ : Walk).enter compiledQuery x =
      let attempts := as.flatMap (Attempt.enter compiledQuery.steps x)
      let settled := Attempt.settle compiledQuery.steps attempts.length attempts
      ⟨settled.1, settled.2.reverse ++ found⟩ := by
    simp only [Walk.enter, entries_of_not_isDefinition hx]
    rfl
  simp only [hstart, henter, hsettle]

theorem enter_of_rests (h : Rests d as) (hx : isDefinition x.place.node = false)
    (hother : x.depth = d + 1 → isOther x.place.node = true ∧ x.later ≠ []) :
    (⟨as, found⟩ : Walk).enter compiledQuery x = ⟨as, found⟩ := by
  have hstay : ∀ a ∈ as,
      Attempt.enter compiledQuery.steps x a = [{ a with waits := false }] := by
    intro a ha
    obtain ⟨hbase, hpressed⟩ := h.base a ha
    obtain ⟨s, hs, hstep⟩ := h.step a ha
    by_cases hdepth : x.depth = d + 1
    · cases he : s.depth with
      | none => exact Attempt.enter_elsewhere hs (by simp [he])
      | some e =>
        obtain ⟨rfl, himmediate, role, hrole, hs'⟩ := hstep e he
        have hnode : x.place.node.role ≠ some role := by
          have hnone := roles_and_plain_of_isOther (hother hdepth).1
          simp only [List.mem_cons, List.not_mem_nil, or_false] at hrole
          rcases hrole with rfl | rfl
          · exact hnone.1
          · exact hnone.2.1
        have hx : a.base + (1 : Nat) = x.depth := by omega
        rw [Attempt.enter_otherRole hs he hx hs' hnode ⟨himmediate, hpressed⟩,
          if_neg (hother hdepth).2]
    · refine Attempt.enter_elsewhere hs fun e he => ?_
      have hone := (hstep e he).1
      omega
  have hall : as.flatMap (Attempt.enter compiledQuery.steps x) =
      as.map fun a => { a with waits := false } := by
    rw [List.map_eq_flatMap]
    exact List.flatMap_congr hstay
  exact enter_of_not_isDefinition hx hall h.settle

theorem leave_of_rests (h : Rests d as) {depth : Nat} (hdepth : d < depth) :
    (⟨as, found⟩ : Walk).leave compiledQuery depth = ⟨as, found⟩ := by
  have hover : ∀ a ∈ as, ¬ ((depth : Int) < a.base ∨ depth = 0) := by
    intro a ha
    have hbase := (h.base a ha).1
    omega
  unfold Walk.leave
  refine congrArg₂ Walk.mk (List.filter_eq_self.mpr fun a ha => ?_) ?_
  · have hopen := hover a ha
    have hbase := (h.base a ha).1
    obtain ⟨s, hs, hstep⟩ := h.step a ha
    cases he : s.depth with
    | none => simp_all
    | some e =>
      have hlost : ¬ ((depth : Int) < a.base + e) := by
        have hone := (hstep e he).1
        omega
      simpa [hs, he, Attempt.isDone] using hlost
  · simpa using fun a ha _ => hover a ha

theorem isDefinition_eq_false : isDefinition n = false ↔
    n.kind ≠ "function_definition" ∧ n.kind ≠ "class_definition" := by
  rw [isDefinition, Bool.or_eq_false_iff, beq_eq_false_iff_ne, beq_eq_false_iff_ne]

theorem isDefinition_of_plain (h : plain n = true) : isDefinition n = false := by
  obtain ⟨kind, named, role, span, children⟩ := n
  rw [plain, Bool.and_eq_true, Bool.not_eq_true'] at h
  exact h.1

mutual

/-- Where there is no definition, the attempts under way rest. -/
theorem tree_of_rests (h : Rests d as) {depth : Nat} (hdepth : d < depth)
    {above : List (Node × Nat)} {later : List Node} : (n : Node) → plain n = true →
    (depth = d + 1 → isOther n = true ∧ later ≠ []) →
    Walk.tree compiledQuery depth above later ⟨as, found⟩ n = ⟨as, found⟩
  | ⟨kind, named, role, span, children⟩, hplain, hother => by
    have henter : (⟨as, found⟩ : Walk).enter compiledQuery
        ⟨⟨⟨kind, named, role, span, children⟩, above⟩, depth, later⟩ = ⟨as, found⟩ :=
      enter_of_rests h (isDefinition_of_plain hplain) hother
    rw [plain, Bool.and_eq_true] at hplain
    rw [Walk.tree, henter, forest_of_rests h (Nat.succ_lt_succ hdepth) children hplain.2,
      leave_of_rests h hdepth]

theorem forest_of_rests (h : Rests d as) {depth : Nat} (hdepth : d + 1 < depth) {parent : Node}
    {above : List (Node × Nat)} {i : Nat} : (ns : List Node) → plainAll ns = true →
    Walk.forest compiledQuery depth parent above i ⟨as, found⟩ ns = ⟨as, found⟩
  | [], _ => by rw [Walk.forest]
  | n :: rest, hplain => by
    rw [plainAll, Bool.and_eq_true] at hplain
    rw [Walk.forest, tree_of_rests h (Nat.lt_of_succ_lt hdepth) n hplain.1 (by omega),
      forest_of_rests h hdepth rest hplain.2]

end

/-! ## Children of definitions -/

theorem enter_function (hkind : n.kind = "function_definition") (hnamed : n.named = true) :
    (⟨[], found⟩ : Walk).enter compiledQuery ⟨⟨n, above⟩, d, later⟩ =
      ⟨[functionAttempt ⟨n, above⟩ d], found⟩ := by
  simp [Walk.enter, Walk.start, compiledQuery, Step.plain, hkind, hnamed, Query.Target.isOpen,
    Attempt.insert, Attempt.insert.go, Attempt.enter, Attempt.fits, Query.Target.accepts,
    Attempt.laterMayFit, Attempt.branches, Attempt.settle, Attempt.contend, Attempt.isDone,
    functionAttempt]

theorem enter_class (hkind : n.kind = "class_definition") (hnamed : n.named = true) :
    (⟨[], found⟩ : Walk).enter compiledQuery ⟨⟨n, above⟩, d, later⟩ =
      ⟨[classAttempt ⟨n, above⟩ d], found⟩ := by
  simp [Walk.enter, Walk.start, compiledQuery, Step.plain, hkind, hnamed, Query.Target.isOpen,
    Attempt.insert, Attempt.insert.go, Attempt.enter, Attempt.fits, Query.Target.accepts,
    Attempt.laterMayFit, Attempt.branches, Attempt.settle, Attempt.contend, Attempt.isDone,
    classAttempt]

/-- With its name, a function is found. -/
theorem enter_functionName (hn : isName n = true) (honce : ∀ m ∈ later, m.role ≠ some "name") :
    (⟨[functionAttempt p d], found⟩ : Walk).enter compiledQuery ⟨⟨n, above⟩, d + 1, later⟩ =
      ⟨[], ⟨0, [⟨1, p⟩, ⟨0, ⟨n, above⟩⟩]⟩ :: found⟩ := by
  simp only [isName, Bool.and_eq_true, beq_iff_eq] at hn
  obtain ⟨⟨hkind, hrole⟩, hplain⟩ := hn
  have henter : [functionAttempt p d].flatMap
      (Attempt.enter compiledQuery.steps ⟨⟨n, above⟩, d + 1, later⟩) =
      [{ functionAttempt p d with step := 2, captures := [⟨1, p⟩, ⟨0, ⟨n, above⟩⟩] }] := by
    rw [List.flatMap_singleton,
      Attempt.enter_role rfl rfl rfl rfl hrole rfl hkind ⟨rfl, rfl, rfl⟩ honce]
    rfl
  exact enter_of_not_isDefinition (isDefinition_of_plain hplain) henter rfl

/-- Behind its name, a class may have base classes. -/
theorem enter_className (hn : isName n = true) (honce : ∀ m ∈ later, m.role ≠ some "name") :
    (⟨[classAttempt p d], found⟩ : Walk).enter compiledQuery ⟨⟨n, above⟩, d + 1, later⟩ =
      ⟨basesAttempts p ⟨n, above⟩ d, found⟩ := by
  simp only [isName, Bool.and_eq_true, beq_iff_eq] at hn
  obtain ⟨⟨hkind, hrole⟩, hplain⟩ := hn
  have henter : [classAttempt p d].flatMap
      (Attempt.enter compiledQuery.steps ⟨⟨n, above⟩, d + 1, later⟩) =
      (basesAttempts p ⟨n, above⟩ d).map fun a => { a with waits := false } := by
    rw [List.flatMap_singleton,
      Attempt.enter_role rfl rfl rfl rfl hrole rfl hkind ⟨rfl, rfl, rfl⟩ honce]
    rfl
  exact enter_of_not_isDefinition (isDefinition_of_plain hplain) henter rests_basesAttempts.settle

theorem enter_bases (hn : isBases n = true)
    (honce : ∀ m ∈ later, m.role ≠ some "superclasses") :
    (⟨basesAttempts p name d, found⟩ : Walk).enter compiledQuery
        ⟨⟨n, above⟩, d + 1, later⟩ =
      ⟨[], ⟨1, [⟨4, p⟩, ⟨2, name⟩, ⟨3, ⟨n, above⟩⟩]⟩ :: found⟩ := by
  simp only [isBases, Bool.and_eq_true, beq_iff_eq] at hn
  obtain ⟨⟨hkind, hrole⟩, hplain⟩ := hn
  have henter : (basesAttempts p name d).flatMap
      (Attempt.enter compiledQuery.steps ⟨⟨n, above⟩, d + 1, later⟩) =
      [{ classAttempt p d with step := 6, captures := [⟨4, p⟩, ⟨2, name⟩, ⟨3, ⟨n, above⟩⟩] },
        { classAttempt p d with step := 6, captures := [⟨4, p⟩, ⟨2, name⟩] }] := by
    rw [basesAttempts, List.map_cons, List.map_singleton, List.flatMap_cons, List.flatMap_singleton,
      Attempt.enter_role rfl rfl rfl rfl hrole rfl hkind ⟨rfl, rfl, rfl⟩ honce,
      Attempt.enter_elsewhere rfl (by simp [compiledQuery, Step.finish, Step.plain])]
    rfl
  -- Of two complete attempts the one that has captured more is kept.
  have hsettle : Attempt.settle compiledQuery.steps 2
      [{ classAttempt p d with step := 6, captures := [⟨4, p⟩, ⟨2, name⟩, ⟨3, ⟨n, above⟩⟩] },
        { classAttempt p d with step := 6, captures := [⟨4, p⟩, ⟨2, name⟩] }] =
      ([], [⟨1, [⟨4, p⟩, ⟨2, name⟩, ⟨3, ⟨n, above⟩⟩]⟩]) := by
    simp [Attempt.settle, Attempt.contend, Attempt.containment, Attempt.sameCapture,
      Attempt.isDone, Attempt.toMatch, classAttempt, compiledQuery, Step.finish, Step.plain]
  exact enter_of_not_isDefinition (isDefinition_of_plain hplain) henter hsettle

/-- A class without base classes is found with its last child. -/
theorem enter_lastChild (hn : isDefinition n = false) (hrole : n.role ≠ some "superclasses") :
    (⟨basesAttempts p name d, found⟩ : Walk).enter compiledQuery ⟨⟨n, above⟩, d + 1, []⟩ =
      ⟨[], ⟨1, [⟨4, p⟩, ⟨2, name⟩]⟩ :: found⟩ := by
  have henter : (basesAttempts p name d).flatMap
      (Attempt.enter compiledQuery.steps ⟨⟨n, above⟩, d + 1, []⟩) =
      [{ classAttempt p d with step := 6, captures := [⟨4, p⟩, ⟨2, name⟩] }] := by
    rw [basesAttempts, List.map_cons, List.map_singleton, List.flatMap_cons, List.flatMap_singleton,
      Attempt.enter_otherRole rfl rfl rfl rfl hrole ⟨rfl, rfl⟩, if_pos rfl,
      Attempt.enter_elsewhere rfl (by simp [compiledQuery, Step.finish, Step.plain])]
    rfl
  exact enter_of_not_isDefinition hn henter rfl

/-- A subtree without definitions is passed; what there is once it has been entered stays. -/
theorem tree_of_enter {bs : List Attempt} {found' : List Query.Match} (hplain : plain n = true)
    (h : Rests d bs) (henter : (⟨as, found⟩ : Walk).enter compiledQuery
      ⟨⟨n, above⟩, d + 1, later⟩ = ⟨bs, found'⟩) :
    Walk.tree compiledQuery (d + 1) above later ⟨as, found⟩ n = ⟨bs, found'⟩ := by
  obtain ⟨kind, named, role, span, children⟩ := n
  rw [plain, Bool.and_eq_true] at hplain
  rw [Walk.tree, henter, forest_of_rests h (Nat.lt_succ_self _) children hplain.2,
    leave_of_rests h (Nat.lt_succ_self _)]

/-! ## Finding definitions -/

mutual

theorem definitionsFrom_of_plain {above : List (Node × Nat)} : (n : Node) → plain n = true →
    definitionsFrom above n = []
  | ⟨kind, named, role, span, children⟩, h => by
    rw [definitionsFrom_of_not_isDefinition (isDefinition_of_plain h)]
    rw [plain, Bool.and_eq_true] at h
    exact definitionsOfAll_of_plainAll children h.2

theorem definitionsOfAll_of_plainAll {parent : Node} {above : List (Node × Nat)} {i : Nat} :
    (ns : List Node) → plainAll ns = true → definitionsOfAll parent above i ns = []
  | [], _ => definitionsOfAll_nil
  | n :: rest, h => by
    rw [plainAll, Bool.and_eq_true] at h
    rw [definitionsOfAll_cons, definitionsFrom_of_plain n h.1,
      definitionsOfAll_of_plainAll rest h.2, List.nil_append]

end

/-- From one state of a walk to another, definitions have been found: each of them once, in this
order, and nothing is under way afterwards. -/
def Finds (ps : List Place) (w w' : Walk) : Prop :=
  ∃ ms, List.Forall₂ (Tells compiledQuery) ms ps ∧ w' = ⟨[], ms.reverse ++ w.found⟩

theorem Finds.nil : Finds [] ⟨as, found⟩ ⟨[], found⟩ := ⟨[], .nil, rfl⟩

theorem Finds.one {m : Query.Match} (h : Tells compiledQuery m p) :
    Finds [p] ⟨as, found⟩ ⟨[], m :: found⟩ := ⟨[m], .cons h .nil, rfl⟩

theorem Finds.append {ps qs : List Place} {w w' w'' : Walk} (h : Finds ps w w')
    (h' : Finds qs w' w'') : Finds (ps ++ qs) w w'' := by
  obtain ⟨ms, hms, rfl⟩ := h
  obtain ⟨ns, hns, rfl⟩ := h'
  refine ⟨ms ++ ns, List.rel_append hms hns, ?_⟩
  rw [List.reverse_append, List.append_assoc]

theorem Finds.leave {ps : List Place} {w w' : Walk} (h : Finds ps w w') :
    Finds ps w (w'.leave compiledQuery d) := by
  obtain ⟨ms, hms, rfl⟩ := h
  exact ⟨ms, hms, rfl⟩

theorem captureIndices : ["fn.name", "fn.def", "class.name", "class.bases", "class.def"].map
    compiledQuery.captureIndex? = [some 0, some 1, some 2, some 3, some 4] := by
  decide +kernel

theorem tells_function {q : Place} (hkind : p.node.kind = "function_definition")
    (hname : p.node.child? "name" = some q.node) :
    Tells compiledQuery ⟨0, [⟨1, p⟩, ⟨0, q⟩]⟩ p := by
  have hindices := captureIndices
  simp only [List.map_cons, List.map_nil, List.cons.injEq, and_true] at hindices
  exact .function q hkind (by simp [hindices, Query.Match.place?])
    (by simp [hindices, Query.Match.place?]) (by simp [hindices, Query.Match.place?]) hname

theorem tells_class (bases : Option Place) (hkind : p.node.kind = "class_definition")
    (hname : p.node.child? "name" = some name.node)
    (hbases : bases.map (·.node) = p.node.child? "superclasses") :
    Tells compiledQuery ⟨1, [⟨4, p⟩, ⟨2, name⟩] ++ bases.toList.map (⟨3, ·⟩)⟩ p := by
  have hindices := captureIndices
  simp only [List.map_cons, List.map_nil, List.cons.injEq, and_true] at hindices
  refine .type name hkind (by simp [hindices, Query.Match.place?])
    (by simp [hindices, Query.Match.place?]) hname ?_
  rw [← hbases]
  cases bases <;> simp [hindices, Query.Match.place?]

theorem ne_nil_of_shapedFrom {stage : Stage} (hstage : stage ≠ .body)
    (h : shapedFrom stage rest = true) : rest ≠ [] := by
  rintro rfl
  cases stage <;> simp_all [shapedFrom]

/-- A child that has nothing to do with an outline can be left out. -/
theorem finds_of_other (h : Rests d as) (hn : isOther n = true) (hrest : rest ≠ [])
    (hfinds : Finds (p :: definitionsOfAll p.node p.above (i + 1) rest) ⟨as, found⟩
      (Walk.forest compiledQuery (d + 1) p.node p.above (i + 1) ⟨as, found⟩ rest)) :
    Finds (p :: definitionsOfAll p.node p.above i (n :: rest)) ⟨as, found⟩
      (Walk.forest compiledQuery (d + 1) p.node p.above i ⟨as, found⟩ (n :: rest)) := by
  have hplain := (roles_and_plain_of_isOther hn).2.2
  rw [definitionsOfAll_cons, definitionsFrom_of_plain n hplain, List.nil_append, Walk.forest,
    tree_of_rests h (Nat.lt_succ_self d) n hplain fun _ => ⟨hn, hrest⟩]
  exact hfinds

theorem find?_role_cons {role : String} :
    (n :: rest).find? (fun c => c.role == some role) =
      if n.role = some role then some n else rest.find? fun c => c.role == some role := by
  by_cases h : n.role = some role <;> simp [h]

mutual

-- The induction is on the tree; there is one statement for each stage, with what is under way in
-- it. Before its name has been entered, or its base classes, a definition is yet to be found, and
-- so are those in later children.
theorem tree_shaped {above : List (Node × Nat)} {later : List Node} {d : Nat}
    {found : List Query.Match} : (n : Node) → shaped n = true →
    Finds (definitionsFrom above n) ⟨[], found⟩
      (Walk.tree compiledQuery d above later ⟨[], found⟩ n)
  | ⟨kind, named, role, span, children⟩, h => by
    by_cases hfunction : kind = "function_definition"
    · have hdefinition : isDefinition ⟨kind, named, role, span, children⟩ = true := by
        simp [isDefinition, hfunction]
      simp only [shaped, hfunction, beq_self_eq_true, if_true, Bool.and_eq_true] at h
      rw [definitionsFrom_of_isDefinition hdefinition, Walk.tree, enter_function hfunction h.1]
      exact (forest_functionName hfunction children h.2 rfl).leave
    · by_cases hclass : kind = "class_definition"
      · have hdefinition : isDefinition ⟨kind, named, role, span, children⟩ = true := by
          simp [isDefinition, hclass]
        rw [shaped, if_neg (by simpa using hfunction), if_pos (by simpa using hclass),
          Bool.and_eq_true] at h
        rw [definitionsFrom_of_isDefinition hdefinition, Walk.tree, enter_class hclass h.1]
        exact (forest_className hclass children h.2 rfl rfl).leave
      · have hother : isDefinition ⟨kind, named, role, span, children⟩ = false := by
          simp [isDefinition, hfunction, hclass]
        simp only [shaped, beq_iff_eq, if_neg hfunction, if_neg hclass] at h
        rw [definitionsFrom_of_not_isDefinition hother, Walk.tree,
          enter_of_not_isDefinition hother rfl rfl]
        exact (forest_body children h).leave

theorem forest_body {parent : Node} {above : List (Node × Nat)} {i d : Nat}
    {found : List Query.Match} : (ns : List Node) → shapedFrom .body ns = true →
    Finds (definitionsOfAll parent above i ns) ⟨[], found⟩
      (Walk.forest compiledQuery d parent above i ⟨[], found⟩ ns)
  | [], _ => by
    rw [definitionsOfAll_nil, Walk.forest]
    exact .nil
  | n :: rest, h => by
    rw [shapedFrom, Bool.and_eq_true] at h
    rw [definitionsOfAll_cons, Walk.forest]
    have hfirst : Finds (definitionsFrom ((parent, i) :: above) n) ⟨[], found⟩
        (Walk.tree compiledQuery d ((parent, i) :: above) rest ⟨[], found⟩ n) :=
      tree_shaped n h.1
    obtain ⟨ms, hms, hw⟩ := hfirst
    rw [hw]
    exact Finds.append ⟨ms, hms, rfl⟩ (forest_body rest h.2)

theorem forest_functionName {p : Place} {i d : Nat} {found : List Query.Match}
    (hkind : p.node.kind = "function_definition") : (ns : List Node) →
    shapedFrom .functionName ns = true →
    p.node.child? "name" = ns.find? (fun c => c.role == some "name") →
    Finds (p :: definitionsOfAll p.node p.above i ns) ⟨[functionAttempt p d], found⟩
      (Walk.forest compiledQuery (d + 1) p.node p.above i ⟨[functionAttempt p d], found⟩ ns)
  | [], h, _ => by
    rw [shapedFrom] at h
    cases h
  | n :: rest, h, hname => by
    by_cases hn : isName n = true
    · rw [shapedFrom, if_pos hn, Bool.and_eq_true] at h
      obtain ⟨hrole, hplain⟩ := role_and_plain_of_isName hn
      rw [find?_role_cons, if_pos hrole] at hname
      rw [definitionsOfAll_cons, definitionsFrom_of_plain n hplain, List.nil_append, Walk.forest,
        tree_of_enter hplain rests_nil (enter_functionName hn (by simpa using h.1))]
      exact (Finds.one (tells_function hkind hname)).append (forest_body rest h.2)
    · rw [shapedFrom, if_neg hn, Bool.and_eq_true] at h
      rw [find?_role_cons, if_neg (roles_and_plain_of_isOther h.1).1] at hname
      exact finds_of_other rests_functionAttempt h.1 (ne_nil_of_shapedFrom (by simp) h.2)
        (forest_functionName hkind rest h.2 hname)

theorem forest_className {p : Place} {i d : Nat} {found : List Query.Match}
    (hkind : p.node.kind = "class_definition") : (ns : List Node) →
    shapedFrom .className ns = true →
    p.node.child? "name" = ns.find? (fun c => c.role == some "name") →
    p.node.child? "superclasses" = ns.find? (fun c => c.role == some "superclasses") →
    Finds (p :: definitionsOfAll p.node p.above i ns) ⟨[classAttempt p d], found⟩
      (Walk.forest compiledQuery (d + 1) p.node p.above i ⟨[classAttempt p d], found⟩ ns)
  | [], h, _, _ => by
    rw [shapedFrom] at h
    cases h
  | n :: rest, h, hname, hbases => by
    by_cases hn : isName n = true
    · rw [shapedFrom, if_pos hn, Bool.and_eq_true] at h
      obtain ⟨hrole, hplain⟩ := role_and_plain_of_isName hn
      rw [find?_role_cons, if_pos hrole] at hname
      rw [find?_role_cons, if_neg (by simp [hrole])] at hbases
      rw [definitionsOfAll_cons, definitionsFrom_of_plain n hplain, List.nil_append, Walk.forest,
        tree_of_enter hplain rests_basesAttempts (enter_className hn (by simpa using h.1))]
      exact forest_bases hkind hname rest h.2 hbases
    · rw [shapedFrom, if_neg hn, Bool.and_eq_true] at h
      obtain ⟨hrole, hrole', -⟩ := roles_and_plain_of_isOther h.1
      rw [find?_role_cons, if_neg hrole] at hname
      rw [find?_role_cons, if_neg hrole'] at hbases
      exact finds_of_other rests_classAttempt h.1 (ne_nil_of_shapedFrom (by simp) h.2)
        (forest_className hkind rest h.2 hname hbases)

theorem forest_bases {p name : Place} {i d : Nat} {found : List Query.Match}
    (hkind : p.node.kind = "class_definition") (hname : p.node.child? "name" = some name.node) :
    (ns : List Node) → shapedFrom .bases ns = true →
    p.node.child? "superclasses" = ns.find? (fun c => c.role == some "superclasses") →
    Finds (p :: definitionsOfAll p.node p.above i ns) ⟨basesAttempts p name d, found⟩
      (Walk.forest compiledQuery (d + 1) p.node p.above i ⟨basesAttempts p name d, found⟩ ns)
  | [], h, _ => by
    rw [shapedFrom] at h
    cases h
  | ⟨kind, named, role, span, children⟩ :: rest, h, hbases => by
    by_cases hn : isBases ⟨kind, named, role, span, children⟩ = true
    · rw [shapedFrom, if_pos hn, Bool.and_eq_true] at h
      obtain ⟨hrole, hplain⟩ := role_and_plain_of_isBases hn
      rw [find?_role_cons, if_pos hrole] at hbases
      have htells := tells_class (some ⟨_, (p.node, i) :: p.above⟩) hkind hname hbases.symm
      rw [definitionsOfAll_cons, definitionsFrom_of_plain _ hplain, List.nil_append, Walk.forest,
        tree_of_enter hplain rests_nil (enter_bases hn (by simpa using h.1))]
      exact (Finds.one htells).append (forest_body rest h.2)
    · rw [shapedFrom, if_neg hn] at h
      by_cases hrest : rest = []
      · subst hrest
        simp only [List.isEmpty_nil, if_true, Bool.and_eq_true, Bool.not_eq_true', bne_iff_ne] at h
        obtain ⟨⟨hother, hrole⟩, hshaped⟩ := h
        rw [find?_role_cons, if_neg hrole] at hbases
        have htells := tells_class none hkind hname hbases.symm
        have hbody : shapedFrom .body children = true := by
          simpa [shaped, (isDefinition_eq_false.mp hother)] using hshaped
        rw [definitionsOfAll_cons, definitionsFrom_of_not_isDefinition hother,
          definitionsOfAll_nil, List.append_nil, Walk.forest, Walk.forest, Walk.tree,
          enter_lastChild hother hrole]
        exact (Finds.one htells).append (forest_body children hbody).leave
      · rw [if_neg (by simpa using hrest), Bool.and_eq_true] at h
        rw [find?_role_cons, if_neg (roles_and_plain_of_isOther h.1).2.1] at hbases
        exact finds_of_other rests_basesAttempts h.1 hrest
          (forest_bases hkind hname rest h.2 hbases)

end

/-- **What the query for outlines reports.** If a tree is shaped as it should be, the query
reports its definitions, each of them once and in source order. -/
theorem reports_of_shaped (t : SourceText) (root : Node) (h : shaped root = true) :
    Reports compiledQuery t root := by
  obtain ⟨ms, hms, hw⟩ : Finds (definitionsFrom [] root) ⟨[], []⟩
      (Walk.tree compiledQuery 0 [] [] ⟨[], []⟩ root) := tree_shaped root h
  have hpredicates : ∀ k : Nat, (compiledQuery.predicates[k]?).getD [] = [] := by
    intro k
    match k with
    | 0 => rfl
    | 1 => rfl
    | k + 2 => rfl
  have hmatches : compiledQuery.matchesOf t root = ms := by
    simp [Query.matchesOf, hw, hpredicates]
  rw [Reports, hmatches]
  exact hms

end SourceFacts.Outline
