import SourceFacts.Outline.Extract
import SourceFacts.Proofs.Lists
import SourceFacts.Proofs.Syntax.Traversal

/-!
# The calls of a body

The calls of a body are collected by a traversal that enters no definition. It finds the calls that
stand outside of the definitions in the body, each once and in source order, an outer call before
those inside it (`Outline.collectCalls_spec`). What is called must be a name or a member. Of a
definition the traversal passes over everything but its decorators, which stand beside it and not
below it.
-/

namespace SourceFacts.Outline

open Syntax (Node Place SourceText Traversal)

variable {t : SourceText} {body n : Node} {p : Place} {c : CallRef}

/-! ## Calls -/

/-- A node makes a call of a name, or of a member of an object. -/
inductive Makes (t : SourceText) (n : Node) : CallRef → Prop
  | name (callee : Node) (hkind : n.kind = "call") (hcallee : n.child? "function" = some callee)
      (hname : callee.kind = "identifier") : Makes t n ⟨none, t.textOf callee, n.span.firstLine⟩
  | member (callee object name : Node) (hkind : n.kind = "call")
      (hcallee : n.child? "function" = some callee) (hmember : callee.kind = "attribute")
      (hobject : callee.child? "object" = some object)
      (hname : callee.child? "attribute" = some name) :
      Makes t n ⟨some (t.textOf object), t.textOf name, n.span.firstLine⟩

/-- The call that a node makes. -/
def call? (t : SourceText) (n : Node) : Option CallRef :=
  if n.kind == "call" then callRef? t n else none

theorem callRef?_eq_some_iff (hkind : n.kind = "call") : callRef? t n = some c ↔ Makes t n c := by
  constructor
  · intro h
    unfold callRef? at h
    cases hcallee : n.child? "function" with
    | none => simp [hcallee] at h
    | some callee =>
      simp only [hcallee, Option.bind_eq_bind, Option.bind_some] at h
      split at h
      case h_1 hname =>
        obtain rfl := Option.some.inj h
        exact .name callee hkind hcallee hname
      case h_2 hmember =>
        cases hobject : callee.child? "object" with
        | none => simp [hobject] at h
        | some object =>
          cases hname : callee.child? "attribute" with
          | none => simp [hobject, hname] at h
          | some name =>
            simp only [hobject, hname, Option.bind_some] at h
            obtain rfl := Option.some.inj h
            exact .member callee object name hkind hcallee hmember hobject hname
      case h_3 => cases h
  · intro h
    cases h with
    | name callee _ hcallee hname => simp [callRef?, hcallee, hname]
    | member callee object name _ hcallee hmember hobject hname =>
      simp [callRef?, hcallee, hmember, hobject, hname]

theorem call?_eq_some_iff : call? t n = some c ↔ Makes t n c := by
  unfold call?
  by_cases hkind : n.kind = "call"
  · rw [if_pos (by simpa using hkind), callRef?_eq_some_iff hkind]
  · rw [if_neg (by simpa using hkind)]
    refine iff_of_false nofun fun h => hkind ?_
    cases h <;> assumption

theorem isSome_call?_iff : (call? t n).isSome = true ↔ ∃ c, Makes t n c := by
  simp only [Option.isSome_iff_exists, call?_eq_some_iff]

/-! ## Where calls are looked for -/

/-- The nodes on the way to a place, itself included and the root left out. -/
def belowRoot (p : Place) : List Node := (p.node :: p.ancestors).dropLast

/-- A place is reached through named nodes. -/
def ThroughNamed (p : Place) : Prop := ∀ n ∈ belowRoot p, n.named = true

instance (p : Place) : Decidable (ThroughNamed p) :=
  inferInstanceAs (Decidable (∀ n ∈ belowRoot p, _))

/-- A place is inside a definition that is itself inside the tree. -/
def InDefinition (p : Place) : Prop := ∃ n ∈ p.ancestors.dropLast, isDefinition n = true

theorem reaches_callWalk_iff (p : Place) : (callWalk t).reaches p = true ↔
    ThroughNamed p ∧ ∀ n ∈ belowRoot p, isDefinition n = false := by
  obtain ⟨n, above⟩ := p
  induction above generalizing n with
  | nil => exact iff_of_true rfl ⟨List.forall_mem_nil _, List.forall_mem_nil _⟩
  | cons a above ih =>
    obtain ⟨parent, i⟩ := a
    have hcons : belowRoot ⟨n, (parent, i) :: above⟩ = n :: belowRoot ⟨parent, above⟩ := by
      simp [belowRoot, Place.ancestors]
    have hstep : (callWalk t).reaches ⟨n, (parent, i) :: above⟩ =
        (n.named && !isDefinition n && (callWalk t).reaches ⟨parent, above⟩) := rfl
    rw [hstep, Bool.and_eq_true, Bool.and_eq_true, ih parent, ThroughNamed, ThroughNamed, hcons,
      List.forall_mem_cons, List.forall_mem_cons, Bool.not_eq_true']
    exact and_and_and_comm

/-- A call is no definition, so only what is above it matters. -/
theorem inDefinition_iff (h : Makes t p.node c) :
    (∀ n ∈ belowRoot p, isDefinition n = false) ↔ ¬ InDefinition p := by
  obtain ⟨n, above⟩ := p
  have hkind : n.kind = "call" := by cases h <;> assumption
  have hself : isDefinition n = false := by
    rw [isDefinition, hkind]
    decide
  cases above with
  | nil => simp [belowRoot, InDefinition, Place.ancestors]
  | cons a above => simp [belowRoot, InDefinition, Place.ancestors, hself]

/-! ## The calls that are found -/

/-- The places of the calls that are found in a body. -/
def callPlaces (t : SourceText) (body : Node) : List Place :=
  (body.places.filter (callWalk t).reaches).filter fun p => (call? t p.node).isSome

theorem mem_callPlaces : p ∈ callPlaces t body ↔
    p ∈ body.places ∧ (∃ c, Makes t p.node c) ∧ ThroughNamed p ∧ ¬ InDefinition p := by
  rw [callPlaces, List.mem_filter, List.mem_filter, isSome_call?_iff, reaches_callWalk_iff]
  constructor
  · rintro ⟨⟨hp, hnamed, hdefinition⟩, c, hc⟩
    exact ⟨hp, ⟨c, hc⟩, hnamed, (inDefinition_iff hc).mp hdefinition⟩
  · rintro ⟨hp, ⟨c, hc⟩, hnamed, hdefinition⟩
    exact ⟨⟨hp, hnamed, (inDefinition_iff hc).mpr hdefinition⟩, c, hc⟩

theorem foldl_visit_callWalk (ns : List Node) (calls : List CallRef) :
    ns.foldl (callWalk t).visit calls = calls ++ ns.filterMap (call? t) := by
  induction ns generalizing calls with
  | nil => rw [List.foldl_nil, List.filterMap_nil, List.append_nil]
  | cons n rest ih =>
    have hvisit : (callWalk t).visit calls n = calls ++ (call? t n).toList := by
      simp only [callWalk, call?]
      split
      · cases callRef? t n <;> simp
      · simp
    rw [List.foldl_cons, ih, hvisit, List.append_assoc, List.filterMap_cons]
    cases call? t n <;> rfl

theorem collectCalls_eq_visited (t : SourceText) (body : Node) :
    collectCalls t body = ((callWalk t).visited body).filterMap (call? t) := by
  rw [collectCalls, Traversal.through_eq_foldl, foldl_visit_callWalk, List.nil_append]

/-- Each collected call is made at its own place. -/
theorem forall₂_collectCalls (t : SourceText) (body : Node) :
    List.Forall₂ (fun p c => Makes t p.node c) (callPlaces t body) (collectCalls t body) := by
  rw [collectCalls_eq_visited, Traversal.visited_eq, List.filterMap_map]
  have hchosen := Lists.forall₂_filterMap (fun p : Place => call? t p.node)
    (body.places.filter (callWalk t).reaches)
  exact hchosen.imp fun p c h => call?_eq_some_iff.mp h

theorem exists_place_of_mem_collectCalls (hc : c ∈ collectCalls t body) :
    ∃ p ∈ body.places, Makes t p.node c := by
  rw [collectCalls_eq_visited, Traversal.visited_eq, List.filterMap_map] at hc
  obtain ⟨p, hp, hcall⟩ := List.mem_filterMap.mp hc
  exact ⟨p, List.mem_of_mem_filter hp, call?_eq_some_iff.mp hcall⟩

/-- What the grammar says of a body: calls stand below named nodes only, and a member has its object
and its name. -/
structure IsBody (body : Node) : Prop where
  calls : ∀ p ∈ body.places, p.node.kind = "call" → ThroughNamed p
  members : ∀ p ∈ body.places, ∀ m ∈ p.node.children, m.kind = "attribute" →
    (m.child? "object").isSome = true ∧ (m.child? "attribute").isSome = true

/-- In a body a call counts if what it calls is a name or a member. -/
theorem exists_makes_iff (h : IsBody body) (hp : p ∈ body.places) : (∃ c, Makes t p.node c) ↔
    p.node.kind = "call" ∧ ∃ callee, p.node.child? "function" = some callee ∧
      (callee.kind = "identifier" ∨ callee.kind = "attribute") := by
  constructor
  · rintro ⟨c, hmakes⟩
    cases hmakes with
    | name callee hkind hcallee hname => exact ⟨hkind, callee, hcallee, Or.inl hname⟩
    | member callee object name hkind hcallee hmember =>
      exact ⟨hkind, callee, hcallee, Or.inr hmember⟩
  · rintro ⟨hkind, callee, hcallee, hname | hmember⟩
    · exact ⟨_, .name callee hkind hcallee hname⟩
    · have hchild : callee ∈ p.node.children := List.mem_of_find?_eq_some hcallee
      have hparts := h.members p hp callee hchild hmember
      obtain ⟨object, hobject⟩ := Option.isSome_iff_exists.mp hparts.1
      obtain ⟨name, hname⟩ := Option.isSome_iff_exists.mp hparts.2
      exact ⟨_, .member callee object name hkind hcallee hmember hobject hname⟩

/-- **The calls of a body.** In every tree the traversal ends, after at most as many passes as there
are nodes. It has then found one call for each place that makes one, is reached through named nodes
and is not inside a definition of the tree, in the order of these places: each once, what is above
another first, and otherwise from left to right. In a body those are all calls of names and members
that are not inside a definition. -/
theorem collectCalls_spec (t : SourceText) (body : Node) :
    (∃ passes ≤ body.size, (callWalk t).pass^[passes] ⟨[body], []⟩ = ⟨[], collectCalls t body⟩) ∧
      ∃ ps : List Place, List.Forall₂ (fun p c => Makes t p.node c) ps (collectCalls t body) ∧
        ps.Pairwise (fun p q => Node.routeOf p.above < Node.routeOf q.above) ∧
        (∀ p, p ∈ ps ↔ p ∈ body.places ∧ (∃ c, Makes t p.node c) ∧ ThroughNamed p ∧
          ¬ InDefinition p) ∧
        (IsBody body → ∀ p, p ∈ ps ↔ p ∈ body.places ∧ p.node.kind = "call" ∧
          (∃ callee, p.node.child? "function" = some callee ∧
            (callee.kind = "identifier" ∨ callee.kind = "attribute")) ∧ ¬ InDefinition p) := by
  refine ⟨Traversal.exists_passes body [], callPlaces t body, forall₂_collectCalls t body, ?_,
    fun p => mem_callPlaces, fun hbody p => ?_⟩
  · exact ((Node.pairwise_places body).filter _).filter _
  · rw [mem_callPlaces]
    constructor
    · rintro ⟨hp, hmakes, -, hdefinition⟩
      obtain ⟨hkind, hcallee⟩ := (exists_makes_iff hbody hp).mp hmakes
      exact ⟨hp, hkind, hcallee, hdefinition⟩
    · rintro ⟨hp, hkind, hcallee, hdefinition⟩
      exact ⟨hp, (exists_makes_iff hbody hp).mpr ⟨hkind, hcallee⟩, hbody.calls p hp hkind,
        hdefinition⟩

/-- A body with a decorated definition and with a call in the argument of another, and its tree. -/
def definitionAndCalls : SourceText × Node :=
  let t := SourceText.ofString "@d()\ndef g(): h()\no.f(lambda: k())"
  let node (kind : String) (start stop : Nat) (children : List Node) : Node :=
    ⟨kind, true, none, t.span start stop, children⟩
  let name (role : String) (start : Nat) : Node :=
    (t.leaf "identifier" true start (start + 1)).withRole role
  let call (start : Nat) : Node := node "call" start (start + 3) [name "function" start]
  let member : Node := node "attribute" 18 21 [name "object" 18, name "attribute" 20]
  (t, node "block" 0 34 [
    node "decorated_definition" 0 17 [
      node "decorator" 0 4 [call 1],
      node "function_definition" 5 17 [node "block" 14 17 [call 14]]],
    node "call" 18 34 [member.withRole "function",
      node "argument_list" 21 34 [node "lambda" 22 33 [call 30]]]])

/-- The calls of the decorator and of the lambda count, the call in the definition does not. -/
theorem collectCalls_spec_definitionAndCalls :
    IsBody definitionAndCalls.2 ∧
      collectCalls definitionAndCalls.1 definitionAndCalls.2 =
        [⟨none, "d", 1⟩, ⟨some "o", "f", 3⟩, ⟨none, "k", 3⟩] ∧
      ∃ ps : List Place, ps.length = 3 ∧
        ∀ p, p ∈ ps ↔ p ∈ definitionAndCalls.2.places ∧ p.node.kind = "call" ∧
          (∃ callee, p.node.child? "function" = some callee ∧
            (callee.kind = "identifier" ∨ callee.kind = "attribute")) ∧ ¬ InDefinition p := by
  have hbody : IsBody definitionAndCalls.2 := ⟨by decide, by decide⟩
  have hcalls : collectCalls definitionAndCalls.1 definitionAndCalls.2 =
      [⟨none, "d", 1⟩, ⟨some "o", "f", 3⟩, ⟨none, "k", 3⟩] := by decide
  obtain ⟨-, ps, hmakes, -, -, hmem⟩ :=
    collectCalls_spec definitionAndCalls.1 definitionAndCalls.2
  have hlength : ps.length = 3 := hmakes.length_eq.trans (congrArg List.length hcalls)
  exact ⟨hbody, hcalls, ps, hlength, hmem hbody⟩

end SourceFacts.Outline
