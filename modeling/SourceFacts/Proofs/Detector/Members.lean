import SourceFacts.Detector
import SourceFacts.Proofs.Syntax.ClassBodies

/-!
# Decorators of members

In a class body decorators stand before their member, as siblings of it. The member is found past
further decorators, but a comment is a sibling too: between decorator and member it is taken for
what is decorated, and the decorator is lost (`decoratedTarget?_of_member`,
`decoratedTarget?_of_member_ne`).
-/

namespace SourceFacts.Detector

open Syntax (Node Place SourceText)
open Syntax.TypeScript (IsClassBody isComment isComment_iff memberKinds methodKinds)

/-- Whether a sibling that follows a decorator still comes before the member. -/
def isBeforeMember (n : Node) : Bool := n.kind == "decorator" || isComment n

/-- The member that a decorator in a class body is for. -/
def decoratedMember? (decorator : Place) : Option Place :=
  decorator.followingNamed.find? fun p => !isBeforeMember p.node

/-- The comments between a decorator in a class body and its member. -/
def commentsBetween (decorator : Place) : List Place :=
  (decorator.followingNamed.takeWhile fun p => isBeforeMember p.node).filter fun p =>
    isComment p.node

variable {l : Language} {t : SourceText} {decorator body member : Place} {n : Node}

/-! ## Levels -/

theorem levelOf?_of_isComment (h : isComment n) : levelOf? n = none := by
  rcases isComment_iff.mp h with hkind | hkind <;> simp [levelOf?, hkind]

theorem levelOf?_of_methodKind (h : n.kind ∈ methodKinds) : levelOf? n = some .function := by
  obtain hkind | hkind | hkind : n.kind = "method_definition" ∨ n.kind = "method_signature" ∨
      n.kind = "abstract_method_signature" := by simpa [methodKinds] using h
  all_goals simp [levelOf?, hkind]

theorem levelOf?_of_memberKind (h : n.kind ∈ memberKinds) (hmethod : n.kind ∉ methodKinds) :
    levelOf? n = none := by
  obtain hkind | hkind | hkind | hkind : n.kind = "public_field_definition" ∨
      n.kind = "index_signature" ∨ n.kind = "class_static_block" ∨ n.kind = "ERROR" := by
    simpa [memberKinds, hmethod, Syntax.errorKind] using h
  all_goals simp [levelOf?, hkind]

/-! ## Siblings -/

/-- A named sibling that follows is a named child of the parent. -/
theorem mem_children_of_followingNamed {p : Place} (hparent : decorator.parent? = some body)
    (hp : p ∈ decorator.followingNamed) : p.node ∈ body.node.children ∧ p.node.named := by
  obtain ⟨node, above⟩ := decorator
  cases above with
  | nil => cases hparent
  | cons parent rest =>
    obtain rfl : ⟨parent.1, rest⟩ = body := Option.some.inj hparent
    obtain ⟨hfollows, hnamed⟩ := List.mem_filter.mp hp
    have hchild : p ∈ Place.children ⟨parent.1, rest⟩ := List.mem_of_mem_drop hfollows
    obtain ⟨i, hi, rfl⟩ := List.mem_mapIdx.mp hchild
    exact ⟨List.getElem_mem hi, hnamed⟩

/-- Up to the member there are decorators and comments, and the comments are those between. -/
theorem exists_of_decoratedMember? (h : decoratedMember? decorator = some member) :
    ∃ between after, decorator.followingNamed = between ++ member :: after ∧
      (∀ p ∈ between, isBeforeMember p.node) ∧ isBeforeMember member.node = false ∧
      commentsBetween decorator = between.filter fun p => isComment p.node := by
  obtain ⟨hmember, between, after, hsplit, hbefore⟩ := List.find?_eq_some_iff_append.mp h
  have hmember : isBeforeMember member.node = false := by simpa using hmember
  have hbefore : ∀ p ∈ between, isBeforeMember p.node := by simpa using hbefore
  refine ⟨between, after, hsplit, hbefore, hmember, ?_⟩
  rw [commentsBetween, hsplit, List.takeWhile_append_of_pos hbefore,
    List.takeWhile_cons_of_neg (by simp [hmember]), List.append_nil]

theorem kind_of_decoratedMember? (hparent : decorator.parent? = some body)
    (hbody : IsClassBody body.node) (h : decoratedMember? decorator = some member) :
    member.node.kind ∈ memberKinds := by
  obtain ⟨between, after, hsplit, -, hself, -⟩ := exists_of_decoratedMember? h
  have hfollows : member ∈ decorator.followingNamed := by simp [hsplit]
  obtain ⟨hchild, hnamed⟩ := mem_children_of_followingNamed hparent hfollows
  simp only [isBeforeMember, Bool.or_eq_false_iff, beq_eq_false_iff_ne] at hself
  rcases hbody.children _ hchild hnamed with hdecorator | hcomment | hkind
  · exact absurd hdecorator hself.1
  · simp [hself.2] at hcomment
  · exact hkind

theorem decoratedNode?_eq (hl : l.family = .typescript) (hparent : decorator.parent? = some body)
    (hbody : IsClassBody body.node) : decoratedNode? l decorator =
      (decorator.followingNamed.find? fun p => p.node.kind != "decorator").map (·.node) := by
  simp [decoratedNode?, hl, hparent, hbody.kind]

/-- Past decorators alone the member is found. -/
theorem decoratedNode?_of_noComment (hl : l.family = .typescript)
    (hparent : decorator.parent? = some body) (hbody : IsClassBody body.node)
    (hmember : decoratedMember? decorator = some member) (hnone : commentsBetween decorator = []) :
    decoratedNode? l decorator = some member.node := by
  obtain ⟨between, after, hsplit, hbefore, hself, hcomments⟩ :=
    exists_of_decoratedMember? hmember
  rw [hcomments, List.filter_eq_nil_iff] at hnone
  have hdecorators : ∀ p ∈ between, p.node.kind = "decorator" := by
    intro p hp
    simpa [isBeforeMember, hnone p hp] using hbefore p hp
  have hskipped : (between.find? fun p => p.node.kind != "decorator") = none := by
    simpa using hdecorators
  have hfound : member.node.kind ≠ "decorator" := by
    simp only [isBeforeMember, Bool.or_eq_false_iff] at hself
    simpa using hself.1
  rw [decoratedNode?_eq hl hparent hbody, hsplit, List.find?_append, hskipped]
  simp [hfound]

/-- A comment before the member is found in its place. -/
theorem decoratedNode?_of_comment (hl : l.family = .typescript)
    (hparent : decorator.parent? = some body) (hbody : IsClassBody body.node)
    (hmember : decoratedMember? decorator = some member) (hsome : commentsBetween decorator ≠ []) :
    ∃ comment ∈ commentsBetween decorator, decoratedNode? l decorator = some comment.node := by
  obtain ⟨between, after, hsplit, hbefore, -, hcomments⟩ := exists_of_decoratedMember? hmember
  obtain ⟨c, hc⟩ := List.exists_mem_of_ne_nil _ hsome
  obtain ⟨hc, hcomment⟩ := List.mem_filter.mp (hcomments ▸ hc)
  have hother : (c.node.kind != "decorator") = true := by
    rcases isComment_iff.mp hcomment with hkind | hkind <;> simp [hkind]
  obtain ⟨first, hfirst⟩ : ∃ first,
      (between.find? fun p => p.node.kind != "decorator") = some first :=
    Option.isSome_iff_exists.mp (List.find?_isSome.mpr ⟨c, hc, hother⟩)
  have hbetween : first ∈ between := List.mem_of_find?_eq_some hfirst
  have hkind' : first.node.kind ≠ "decorator" := by simpa using List.find?_some hfirst
  refine ⟨first, ?_, ?_⟩
  · rw [hcomments, List.mem_filter]
    exact ⟨hbetween, by simpa [isBeforeMember, hkind'] using hbefore first hbetween⟩
  · rw [decoratedNode?_eq hl hparent hbody, hsplit, List.find?_append, hfirst]
    rfl

/-! ## What is decorated -/

theorem decoratedTarget?_eq (hnode : decoratedNode? l decorator = some n) :
    decoratedTarget? l t decorator =
      (levelOf? n).map fun level => (level, (n.child? "name").map t.textOf) := by
  rw [decoratedTarget?, hnode, Option.bind_eq_bind, Option.bind_some]
  cases levelOf? n <;> rfl

/-- Nothing is detected for a decorator that is attached to nothing. -/
theorem decorator?_eq_none {p : ParsedSource} {h : Hit}
    (hplace : h.place? "annotation" = some decorator)
    (htarget : decoratedTarget? p.language p.text decorator = none) (locator : Locator) :
    decorator? p locator h = none := by
  cases hname : h.place? "annotation_name" <;> simp [decorator?, hplace, hname, htarget]

/-- With nothing but decorators before the member, what it is decides. -/
theorem decoratedTarget?_of_noComment (t : SourceText) (hl : l.family = .typescript)
    (hparent : decorator.parent? = some body) (hbody : IsClassBody body.node)
    (hmember : decoratedMember? decorator = some member) (hnone : commentsBetween decorator = []) :
    (member.node.kind ∈ methodKinds → decoratedTarget? l t decorator =
      some (.function, (member.node.child? "name").map t.textOf)) ∧
    (member.node.kind ∉ methodKinds → decoratedTarget? l t decorator = none) := by
  have hnode := decoratedNode?_of_noComment hl hparent hbody hmember hnone
  refine ⟨fun hmethod => ?_, fun hother => ?_⟩
  · rw [decoratedTarget?_eq hnode, levelOf?_of_methodKind hmethod]
    rfl
  · have hkind := kind_of_decoratedMember? hparent hbody hmember
    rw [decoratedTarget?_eq hnode, levelOf?_of_memberKind hkind hother]
    rfl

/-- With a comment before the member, there is nothing that is decorated. -/
theorem decoratedTarget?_of_comment (t : SourceText) (hl : l.family = .typescript)
    (hparent : decorator.parent? = some body) (hbody : IsClassBody body.node)
    (hmember : decoratedMember? decorator = some member) (hsome : commentsBetween decorator ≠ []) :
    decoratedTarget? l t decorator = none := by
  obtain ⟨comment, hcomment, hnode⟩ := decoratedNode?_of_comment hl hparent hbody hmember hsome
  rw [decoratedTarget?_eq hnode, levelOf?_of_isComment (List.mem_filter.mp hcomment).2]
  rfl

/-- **What a decorator in a class body is attached to.** The class bodies of every source consist
of decorators, comments and members. If nothing but decorators stands before the member, the
decorator is attached to it: at the level of functions, under its name, if it is a method, and to
nothing if and only if it is not. If a comment stands before the member, the decorator is attached
to nothing, even to a method, and is not detected. -/
theorem decoratedTarget?_of_member (l : Language) (hl : l.family = .typescript) :
    (∀ source, ∀ p ∈ (l.parse source).1.places, p.node.kind = "class_body" →
      IsClassBody p.node) ∧
    ∀ (t : SourceText) (decorator body member : Place), decorator.parent? = some body →
      IsClassBody body.node → decoratedMember? decorator = some member →
      (commentsBetween decorator = [] →
        decoratedNode? l decorator = some member.node ∧
        (member.node.kind ∈ methodKinds → decoratedTarget? l t decorator =
          some (.function, (member.node.child? "name").map t.textOf)) ∧
        (decoratedTarget? l t decorator = none ↔ member.node.kind ∉ methodKinds)) ∧
      (commentsBetween decorator ≠ [] →
        decoratedTarget? l t decorator = none ∧
        ∀ p locator h, p.language = l → h.place? "annotation" = some decorator →
          decorator? p locator h = none) := by
  refine ⟨fun source p hp hkind => l.isClassBody_of_parse hl hp hkind,
    fun t decorator body member hparent hbody hmember => ⟨fun hnone => ?_, fun hsome => ?_⟩⟩
  · obtain ⟨hmethod, hother⟩ := decoratedTarget?_of_noComment t hl hparent hbody hmember hnone
    refine ⟨decoratedNode?_of_noComment hl hparent hbody hmember hnone, hmethod,
      fun hlost hmethodKind => ?_, hother⟩
    rw [hmethod hmethodKind] at hlost
    cases hlost
  · have hlost (t : SourceText) : decoratedTarget? l t decorator = none :=
      decoratedTarget?_of_comment t hl hparent hbody hmember hsome
    refine ⟨hlost t, fun p locator h hp hplace => decorator?_eq_none hplace ?_ locator⟩
    rw [hp]
    exact hlost p.text

theorem decoratedTarget?_of_member_twoDecorators :
    let leaf (kind role : String) (start stop : Nat) : Node :=
      ⟨kind, true, some role, ⟨start, stop, 0, 0⟩, []⟩
    let method : Node :=
      ⟨"method_definition", true, none, ⟨10, 19, 0, 0⟩,
        [leaf "property_identifier" "name" 10 14, leaf "formal_parameters" "parameters" 14 16,
          leaf "statement_block" "body" 17 19]⟩
    let body : Node := ⟨"class_body", true, some "body", ⟨0, 19, 0, 0⟩,
      [leaf "decorator" "decorator" 0 4, leaf "decorator" "decorator" 5 9, method]⟩
    let decorator : Place := ⟨leaf "decorator" "decorator" 0 4, [(body, 0)]⟩
    let member : Place := ⟨method, [(body, 2)]⟩
    let t := SourceText.ofString "@Get @Log find() {}"
    IsClassBody body ∧ decoratedMember? decorator = some member ∧
      commentsBetween decorator = [] ∧
      decoratedTarget? .typescript t decorator = some (.function, some "find") := by
  intro leaf method body decorator member t
  have hmember : decoratedMember? decorator = some member := rfl
  have hnone : commentsBetween decorator = [] := rfl
  have hbody : IsClassBody body := ⟨rfl, by decide⟩
  have hfound := (decoratedTarget?_of_member .typescript rfl).2 t decorator ⟨body, []⟩ member rfl
    hbody hmember
  have htarget := (hfound.1 hnone).2.1 (by decide)
  exact ⟨hbody, hmember, hnone, htarget.trans (by decide)⟩

/-- A comment between a decorator and its method; without the comment the method is found. -/
theorem decoratedTarget?_of_member_ne :
    let leaf (kind role : String) (start stop : Nat) : Node :=
      ⟨kind, true, some role, ⟨start, stop, 0, 0⟩, []⟩
    let method : Node :=
      ⟨"method_definition", true, none, ⟨15, 24, 0, 0⟩,
        [leaf "property_identifier" "name" 15 19, leaf "formal_parameters" "parameters" 19 21,
          leaf "statement_block" "body" 22 24]⟩
    let comment : Node := ⟨"comment", true, none, ⟨5, 14, 0, 0⟩, []⟩
    let body (between : List Node) : Node := ⟨"class_body", true, some "body", ⟨0, 24, 0, 0⟩,
      leaf "decorator" "decorator" 0 4 :: between ++ [method]⟩
    let decorator (between : List Node) : Place :=
      ⟨leaf "decorator" "decorator" 0 4, [(body between, 0)]⟩
    let t := SourceText.ofString "@Get /* all */ find() {}"
    IsClassBody (body [comment]) ∧
      (decoratedMember? (decorator [comment])).map (·.node) = some method ∧
      method.kind ∈ methodKinds ∧ decoratedTarget? .typescript t (decorator [comment]) = none ∧
      decoratedTarget? .typescript t (decorator []) = some (.function, some "find") := by
  intro leaf method comment body decorator t
  exact ⟨⟨rfl, by decide⟩, rfl, by decide, by decide, by decide +kernel⟩

end SourceFacts.Detector
