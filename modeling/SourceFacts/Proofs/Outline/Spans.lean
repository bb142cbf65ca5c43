import SourceFacts.Proofs.Outline.Calls
import SourceFacts.Proofs.Outline.Origins
import SourceFacts.Proofs.Outline.Query

/-!
# The lines of an outline

The lines of an entry are those of its definition with its decorators (`Outline.LinesFrom`). If the
rows of each node of a tree include those of its children, the lines of an outline are nested as
the definitions are: those of a class include those of its methods, and those of a function its
calls (`Outline.ofPython_linesNest`).

Rows are included along any way (`Syntax.Node.RowsNest.covers_of_mem_ancestors`). What wraps a
method in its decorators is no class, so it is still below the class that the method belongs to
(`Outline.covers_wholeAt_of_enclosureOf`).
-/

namespace SourceFacts

namespace Syntax

namespace Span

variable {a b c : Span}

/-- The rows of a span include those of another. -/
def Covers (a b : Span) : Prop := a.firstRow ≤ b.firstRow ∧ b.lastRow ≤ a.lastRow

instance (a b : Span) : Decidable (a.Covers b) := inferInstanceAs (Decidable (_ ∧ _))

theorem Covers.refl (a : Span) : a.Covers a := ⟨Nat.le_refl _, Nat.le_refl _⟩

theorem Covers.trans (h : a.Covers b) (h' : b.Covers c) : a.Covers c :=
  ⟨h.1.trans h'.1, h'.2.trans h.2⟩

/-- The first and the last line of a span. -/
def lines (s : Span) : Nat × Nat := (s.firstLine, s.lastLine)

theorem Covers.lines (h : a.Covers b) :
    a.firstLine ≤ b.firstLine ∧ b.lastLine ≤ a.lastLine :=
  ⟨Nat.succ_le_succ h.1, Nat.succ_le_succ h.2⟩

end Span

namespace Node

variable {root : Node} {p : Place}

/-- Each node of a tree has a range of rows that includes the ranges of its children. -/
def RowsNest (root : Node) : Prop :=
  root.Everywhere fun n =>
    n.span.firstRow ≤ n.span.lastRow ∧ ∀ c ∈ n.children, n.span.Covers c.span

instance (root : Node) : Decidable root.RowsNest :=
  inferInstanceAs (Decidable (root.Everywhere _))

namespace RowsNest

theorem lines (h : root.RowsNest) (hp : p ∈ root.places) :
    1 ≤ p.node.span.firstLine ∧ p.node.span.firstLine ≤ p.node.span.lastLine :=
  ⟨Nat.le_add_left 1 _, Nat.succ_le_succ (h.of_mem_places hp).1⟩

theorem covers_place (h : root.RowsNest) : ∀ p ∈ root.places, root.span.Covers p.node.span := by
  refine places_induction (.refl _) fun m rest n i hm hn hcovers => ?_
  exact hcovers.trans ((h.of_mem_places hm).2 n hn)

theorem covers_of_mem_ancestors (h : root.RowsNest) : ∀ p ∈ root.places, ∀ m ∈ p.ancestors,
    m.span.Covers p.node.span := by
  refine places_induction (List.forall_mem_nil _) fun m rest n i hm hn hcovers => ?_
  have hchild : m.span.Covers n.span := (h.of_mem_places hm).2 n hn
  refine List.forall_mem_cons.mpr ⟨hchild, fun above habove => ?_⟩
  exact (hcovers above habove).trans hchild

end RowsNest

end Node

end Syntax

namespace Outline

open Syntax (Node Place SourceText)

variable {q : Query} {t : SourceText} {root : Node} {p c : Place}

/-! ## Definitions with their decorators -/

/-- The node of a definition with its decorators, if it has any. -/
def wholeAt (p : Place) : Node :=
  match p.parent? with
  | some m => if m.node.kind = "decorated_definition" then m.node else p.node
  | none => p.node

theorem wholeAt_cases (hp : p ∈ root.places) : wholeAt p = p.node ∨
    ∃ i rest, p.above = (wholeAt p, i) :: rest ∧ (wholeAt p).kind = "decorated_definition" ∧
      ⟨wholeAt p, rest⟩ ∈ root.places := by
  obtain ⟨n, _ | ⟨⟨m, i⟩, rest⟩⟩ := p
  · exact Or.inl rfl
  · by_cases hkind : m.kind = "decorated_definition"
    · have hwhole : wholeAt ⟨n, (m, i) :: rest⟩ = m := if_pos hkind
      have hplace : ⟨m, rest⟩ ∈ root.places := Node.mem_places_of_above hp List.suffix_rfl
      rw [hwhole]
      exact Or.inr ⟨i, rest, rfl, hkind, hplace⟩
    · exact Or.inl (if_neg hkind)

theorem decorated_fst (t : SourceText) (p : Place) : (decorated t p).1 = wholeAt p := by
  obtain ⟨n, _ | ⟨⟨m, i⟩, rest⟩⟩ := p
  · rfl
  · by_cases hkind : m.kind = "decorated_definition" <;>
      simp [decorated, wholeAt, Place.parent?, hkind]

theorem lines_wholeAt (h : root.RowsNest) (hp : p ∈ root.places) :
    1 ≤ (wholeAt p).span.firstLine ∧ (wholeAt p).span.firstLine ≤ (wholeAt p).span.lastLine := by
  rcases wholeAt_cases hp with hself | ⟨i, rest, -, -, hwhole⟩
  · rw [hself]
    exact h.lines hp
  · exact h.lines hwhole

theorem wholeAt_covers (h : root.RowsNest) (hp : p ∈ root.places) :
    (wholeAt p).span.Covers p.node.span := by
  rcases wholeAt_cases hp with hself | ⟨i, rest, habove, -, -⟩
  · rw [hself]
    exact .refl _
  · refine h.covers_of_mem_ancestors p hp _ ?_
    rw [Place.ancestors, habove]
    exact List.mem_cons_self

/-- The class that encloses a definition most closely encloses its decorators, too. -/
theorem covers_wholeAt_of_enclosureOf (h : root.RowsNest) (hp : p ∈ root.places)
    (hc : enclosureOf p.above = .type c) : c.node.span.Covers (wholeAt p).span := by
  rcases wholeAt_cases hp with hself | ⟨i, rest, habove, hkind, hwhole⟩
  · obtain ⟨-, i, hi⟩ := class_of_enclosureOf hc
    rw [hself]
    exact h.covers_of_mem_ancestors p hp _ (List.mem_map_of_mem (hi.subset List.mem_cons_self))
  · -- What wraps the definition is neither a class nor a function.
    have henclosure : enclosureOf rest = .type c := by
      rw [habove] at hc
      simpa [enclosureOf, hkind] using hc
    obtain ⟨-, j, hj⟩ := class_of_enclosureOf henclosure
    exact h.covers_of_mem_ancestors _ hwhole _ (List.mem_map_of_mem (hj.subset List.mem_cons_self))

/-! ## Lines of entries -/

/-- The lines of entries are those of the definitions at certain places with their decorators. -/
structure LinesFrom (o : Outline) (classes functions : List Place)
    (methods : Place → List Place) : Prop where
  classes : List.Forall₂
    (fun e c => (e.startLine, e.endLine) = (wholeAt c).span.lines ∧
      List.Forall₂ (fun f p => (f.startLine, f.endLine) = (wholeAt p).span.lines) e.methods
        (methods c))
    o.classes classes
  functions : List.Forall₂ (fun f p => (f.startLine, f.endLine) = (wholeAt p).span.lines)
    o.functions functions

/-- The lines of a function are a range in which all its calls are. -/
structure FunctionLinesNest (f : FunctionOutline) : Prop where
  range : 1 ≤ f.startLine ∧ f.startLine ≤ f.endLine
  calls : ∀ call ∈ f.calls, f.startLine ≤ call.line ∧ call.line ≤ f.endLine

/-- The lines of a class are a range in which all its methods are. -/
structure ClassLinesNest (c : ClassOutline) : Prop where
  range : 1 ≤ c.startLine ∧ c.startLine ≤ c.endLine
  methods : ∀ f ∈ c.methods,
    FunctionLinesNest f ∧ c.startLine ≤ f.startLine ∧ f.endLine ≤ c.endLine

/-- The lines of an outline are nested as its entries are. -/
structure LinesNest (o : Outline) : Prop where
  classes : ∀ c ∈ o.classes, ClassLinesNest c
  functions : ∀ f ∈ o.functions, FunctionLinesNest f

theorem ClassFrom.lines {e : ClassOutline} (h : ClassFrom t e c) :
    (e.startLine, e.endLine) = (wholeAt c).span.lines := by
  obtain ⟨name, bases, hentry⟩ := h
  have hstart : e.startLine = (decorated t c).1.span.firstLine := congrArg (·.startLine) hentry
  have hstop : e.endLine = (decorated t c).1.span.lastLine := congrArg (·.endLine) hentry
  rw [hstart, hstop, decorated_fst]
  rfl

namespace FunctionFrom

variable {f : FunctionOutline}

theorem lines (h : FunctionFrom t f p) :
    (f.startLine, f.endLine) = (wholeAt p).span.lines := by
  obtain ⟨name, hentry⟩ := h
  have hstart : f.startLine = (decorated t p).1.span.firstLine := congrArg (·.startLine) hentry
  have hstop : f.endLine = (decorated t p).1.span.lastLine := congrArg (·.endLine) hentry
  rw [hstart, hstop, decorated_fst]
  rfl

theorem exists_of_mem_calls {call : CallRef} (h : FunctionFrom t f p) (hcall : call ∈ f.calls) :
    ∃ body ∈ p.node.children, ∃ r ∈ body.places, call.line = r.node.span.firstLine := by
  obtain ⟨name, hentry⟩ := h
  have hcalls : f.calls = ((p.node.child? "body").map (collectCalls t)).getD [] :=
    congrArg (·.calls) hentry
  rw [hcalls] at hcall
  cases hbody : p.node.child? "body" with
  | none =>
    rw [hbody] at hcall
    cases hcall
  | some body =>
    rw [hbody] at hcall
    obtain ⟨r, hr, hmakes⟩ := exists_place_of_mem_collectCalls hcall
    refine ⟨body, List.mem_of_find?_eq_some hbody, r, hr, ?_⟩
    cases hmakes <;> rfl

theorem linesNest (hf : FunctionFrom t f p) (h : root.RowsNest) (hp : p ∈ root.places) :
    FunctionLinesNest f := by
  obtain ⟨hstart, hstop⟩ := Prod.mk.inj hf.lines
  refine ⟨?_, fun call hcall => ?_⟩
  · rw [hstart, hstop]
    exact lines_wholeAt h hp
  · obtain ⟨body, hbody, r, hr, hline⟩ := hf.exists_of_mem_calls hcall
    have hnest : body.RowsNest := (Node.everywhere_iff.mp (h.of_place p hp)).2 body hbody
    have hbodyCovered : p.node.span.Covers body.span := (h.of_mem_places hp).2 body hbody
    have hcovers : (wholeAt p).span.Covers r.node.span :=
      ((wholeAt_covers h hp).trans hbodyCovered).trans (hnest.covers_place r hr)
    rw [hstart, hstop, hline]
    exact ⟨hcovers.lines.1, (hnest.lines hr).2.trans hcovers.lines.2⟩

end FunctionFrom

theorem ClassFrom.linesNest {e : ClassOutline} (he : ClassFrom t e c) (h : root.RowsNest)
    (hc : c ∈ root.places)
    (hmethods : List.Forall₂ (FunctionFrom t) e.methods (outlinedMethods q t root c)) :
    ClassLinesNest e := by
  obtain ⟨hstart, hstop⟩ := Prod.mk.inj he.lines
  refine ⟨?_, fun f hf => ?_⟩
  · rw [hstart, hstop]
    exact lines_wholeAt h hc
  · obtain ⟨p, hp, hfrom⟩ := Lists.exists_of_forall₂ hmethods hf
    have hplace : p ∈ root.places :=
      mem_places_of_reportedFunctions (List.mem_of_mem_filter hp)
    have hcovers : (wholeAt c).span.Covers (wholeAt p).span :=
      (wholeAt_covers h hc).trans
        (covers_wholeAt_of_enclosureOf h hplace (enclosureOf_of_mem_outlinedMethods hc hp))
    obtain ⟨hfirst, hlast⟩ := Prod.mk.inj hfrom.lines
    rw [hstart, hstop, hfirst, hlast]
    exact ⟨hfrom.linesNest h hplace, hcovers.lines⟩

/-- **The lines of an outline.** Entries have the lines of their definitions, decorators included.
If the rows of each node of the tree include those of its children, these lines are ranges that
begin at the first line or later, those of a method are among those of its class, and every call is
on one of the lines of the function that makes it. -/
theorem ofPython_linesNest (q : Query) (t : SourceText) (root : Node) (h : root.RowsNest) :
    LinesFrom (ofPython q t root) (outlinedClasses q t root) (outlinedFunctions q t root)
        (outlinedMethods q t root) ∧
      LinesNest (ofPython q t root) := by
  have hfrom := ofPython_comesFrom q t root
  refine ⟨⟨?_, ?_⟩, ⟨fun e he => ?_, fun f hf => ?_⟩⟩
  · exact hfrom.classes.imp fun e c he => ⟨he.1.lines, he.2.imp fun f p hf => hf.lines⟩
  · exact hfrom.functions.imp fun f p hf => hf.lines
  · obtain ⟨c, hc, hclass, hmethods⟩ := Lists.exists_of_forall₂ hfrom.classes he
    have hplace : c ∈ root.places := mem_places_of_reportedClasses (List.mem_of_mem_filter hc)
    exact hclass.linesNest h hplace hmethods
  · obtain ⟨p, hp, hfunction⟩ := Lists.exists_of_forall₂ hfrom.functions hf
    have hplace : p ∈ root.places :=
      mem_places_of_reportedFunctions (List.mem_of_mem_filter hp)
    exact hfunction.linesNest h hplace

/-- A decorated class with a decorated method that calls a function, and its tree. -/
def decoratedMethod : SourceText × Node :=
  let t := SourceText.ofString "@d\nclass A:\n @e\n def f():\n  g()\n"
  let name (start : Nat) : Node := (t.leaf "identifier" true start (start + 1)).withRole "name"
  let node (kind : String) (start stop : Nat) (children : List Node) : Node :=
    ⟨kind, true, none, t.span start stop, children⟩
  let call : Node := node "call" 28 31 [(t.leaf "identifier" true 28 29).withRole "function"]
  let function : Node := node "function_definition" 17 31 [
    t.leaf "def" false 17 20, name 21, t.leaf "parameters" true 22 24, t.leaf ":" false 24 25,
    (node "block" 28 31 [node "expression_statement" 28 31 [call]]).withRole "body"]
  let method : Node := node "decorated_definition" 13 31 [
    node "decorator" 13 15 [t.leaf "@" false 13 14, t.leaf "identifier" true 14 15], function]
  let type : Node := node "class_definition" 3 31 [
    t.leaf "class" false 3 8, name 9, t.leaf ":" false 10 11,
    (node "block" 13 31 [method]).withRole "body"]
  (t, node "module" 0 32 [node "decorated_definition" 0 31 [
    node "decorator" 0 2 [t.leaf "@" false 0 1, t.leaf "identifier" true 1 2], type]])

/-- Class and method begin at their decorators. -/
theorem ofPython_linesNest_decorated :
    decoratedMethod.2.RowsNest ∧
      LinesNest (ofPython compiledQuery decoratedMethod.1 decoratedMethod.2) ∧
      (ofPython compiledQuery decoratedMethod.1 decoratedMethod.2).classes.map (fun c =>
        ((c.startLine, c.endLine), c.methods.map fun f =>
          (f.startLine, f.endLine, f.calls.map (·.line)))) = [((1, 5), [(3, 5, [5])])] := by
  have hnest : decoratedMethod.2.RowsNest := by decide
  exact ⟨hnest, (ofPython_linesNest compiledQuery _ _ hnest).2, by decide +kernel⟩

end Outline

end SourceFacts
