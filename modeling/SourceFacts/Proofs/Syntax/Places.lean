import Mathlib.Data.List.Nodup
import SourceFacts.Syntax.Node

/-!
# The places of a tree

All places of a tree can be listed, each before those below it and otherwise in source order
(`Node.places`). That is the order of their routes, the positions passed on the way from the root
(`Node.pairwise_places`). So a place is told by its way (`Node.eq_of_way_eq`), and no place is
listed twice (`Node.nodup_places`). What stands above a place is itself a place of the tree
(`Node.mem_places_of_above`), and what holds of the root and goes over from parents to children
holds of every place (`Node.places_induction`). To hold of all nodes of a tree is to hold at all of
its places (`Node.everywhere_iff_places`).
-/

namespace SourceFacts.Syntax.Node

mutual

/-- The places of a tree with the given ancestors. -/
def placesFrom (above : List (Node × Nat)) : Node → List Place
  | ⟨kind, named, role, span, children⟩ =>
    let n : Node := ⟨kind, named, role, span, children⟩
    ⟨n, above⟩ :: placesOfAll n above 0 children

/-- The places of the children of a node, from the child at a position on. -/
def placesOfAll (parent : Node) (above : List (Node × Nat)) (i : Nat) : List Node → List Place
  | [] => []
  | n :: rest => placesFrom ((parent, i) :: above) n ++ placesOfAll parent above (i + 1) rest

end

/-- The places of a tree, in source order. -/
def places (root : Node) : List Place := placesFrom [] root

theorem placesFrom_eq (above : List (Node × Nat)) (n : Node) :
    n.placesFrom above = ⟨n, above⟩ :: placesOfAll n above 0 n.children := by
  obtain ⟨kind, named, role, span, children⟩ := n
  rw [placesFrom]

/-! ## What is above a place -/

mutual

theorem suffix_of_mem_placesFrom {above : List (Node × Nat)} {p : Place} :
    (n : Node) → p ∈ n.placesFrom above → above <:+ p.above
  | ⟨kind, named, role, span, children⟩, h => by
    rw [placesFrom_eq] at h
    rcases List.mem_cons.mp h with rfl | hbelow
    · exact List.suffix_rfl
    · obtain ⟨j, -, hj⟩ := suffix_of_mem_placesOfAll children hbelow
      exact (List.suffix_cons _ above).trans hj

theorem suffix_of_mem_placesOfAll {parent : Node} {above : List (Node × Nat)} {i : Nat}
    {p : Place} : (ns : List Node) → p ∈ placesOfAll parent above i ns →
      ∃ j, i ≤ j ∧ (parent, j) :: above <:+ p.above
  | [], h => by
    rw [placesOfAll] at h
    cases h
  | n :: rest, h => by
    rw [placesOfAll] at h
    rcases List.mem_append.mp h with hfirst | hrest
    · exact ⟨i, Nat.le_refl i, suffix_of_mem_placesFrom n hfirst⟩
    · obtain ⟨j, hij, hj⟩ := suffix_of_mem_placesOfAll rest hrest
      exact ⟨j, by omega, hj⟩

end

mutual

theorem mem_placesFrom_of_above {above rest : List (Node × Nat)} {p : Place} {m : Node} {k : Nat}
    (hbelow : above.length ≤ rest.length) (hm : (m, k) :: rest <:+ p.above) :
    (n : Node) → p ∈ n.placesFrom above → ⟨m, rest⟩ ∈ n.placesFrom above
  | ⟨kind, named, role, span, children⟩, h => by
    rw [placesFrom_eq] at h ⊢
    rcases List.mem_cons.mp h with rfl | hchildren
    · have hlength : rest.length + 1 ≤ above.length := hm.length_le
      omega
    · rcases mem_placesOfAll_of_above hbelow hm children hchildren with ⟨rfl, rfl⟩ | hmem
      · exact List.mem_cons_self
      · exact List.mem_cons_of_mem _ hmem

theorem mem_placesOfAll_of_above {parent : Node} {above rest : List (Node × Nat)} {i : Nat}
    {p : Place} {m : Node} {k : Nat} (hbelow : above.length ≤ rest.length)
    (hm : (m, k) :: rest <:+ p.above) : (ns : List Node) → p ∈ placesOfAll parent above i ns →
      (m = parent ∧ rest = above) ∨ ⟨m, rest⟩ ∈ placesOfAll parent above i ns
  | [], h => by
    rw [placesOfAll] at h
    cases h
  | n :: ns, h => by
    rw [placesOfAll] at h ⊢
    rcases List.mem_append.mp h with hfirst | hns
    · by_cases hlength : above.length + 1 ≤ rest.length
      · have hmem : ⟨m, rest⟩ ∈ n.placesFrom ((parent, i) :: above) :=
          mem_placesFrom_of_above (by simpa using hlength) hm n hfirst
        exact Or.inr (List.mem_append_left _ hmem)
      · -- Two ends of the same way that are equally long.
        have hparent := suffix_of_mem_placesFrom n hfirst
        have hsame : (m, k) :: rest <:+ (parent, i) :: above := by
          refine List.suffix_of_suffix_length_le hm hparent ?_
          simp only [List.length_cons]
          omega
        have heq : (m, k) :: rest = (parent, i) :: above := by
          refine hsame.eq_of_length ?_
          simp only [List.length_cons]
          omega
        simp only [List.cons.injEq, Prod.mk.injEq] at heq
        exact Or.inl ⟨heq.1.1, heq.2⟩
    · exact (mem_placesOfAll_of_above hbelow hm ns hns).imp_right (List.mem_append_right _)

end

/-- What stands above a place of a tree is a place of the tree. -/
theorem mem_places_of_above {root m : Node} {rest : List (Node × Nat)} {k : Nat} {p : Place}
    (hp : p ∈ root.places) (hm : (m, k) :: rest <:+ p.above) : ⟨m, rest⟩ ∈ root.places :=
  mem_placesFrom_of_above (Nat.zero_le _) hm root hp

/-! ## From parents to children -/

mutual

theorem mem_children_of_mem_placesFrom {above rest : List (Node × Nat)} {p : Place} {m : Node}
    {k : Nat} (hp : p.above = (m, k) :: rest) : (n : Node) → p ∈ n.placesFrom above →
      p = ⟨n, above⟩ ∨ p.node ∈ m.children
  | ⟨kind, named, role, span, children⟩, h => by
    rw [placesFrom_eq] at h
    rcases List.mem_cons.mp h with hself | hbelow
    · exact Or.inl hself
    · exact Or.inr (mem_children_of_mem_placesOfAll hp children (List.Subset.refl _) hbelow)

theorem mem_children_of_mem_placesOfAll {parent : Node} {above rest : List (Node × Nat)} {i : Nat}
    {p : Place} {m : Node} {k : Nat} (hp : p.above = (m, k) :: rest) : (ns : List Node) →
      ns ⊆ parent.children → p ∈ placesOfAll parent above i ns → p.node ∈ m.children
  | [], _, h => by
    rw [placesOfAll] at h
    cases h
  | n :: ns, hns, h => by
    rw [placesOfAll] at h
    rcases List.mem_append.mp h with hfirst | hrest
    · rcases mem_children_of_mem_placesFrom hp n hfirst with rfl | hbelow
      · obtain ⟨hparent, -⟩ := List.cons.inj hp
        obtain ⟨rfl, -⟩ := Prod.mk.inj hparent
        exact hns List.mem_cons_self
      · exact hbelow
    · exact mem_children_of_mem_placesOfAll hp ns
        (fun c hc => hns (List.mem_cons_of_mem n hc)) hrest

end

/-- A place below the root is that of a child of what stands next above it. -/
theorem mem_children_of_mem_places {root n m : Node} {k : Nat} {rest : List (Node × Nat)}
    (hp : ⟨n, (m, k) :: rest⟩ ∈ root.places) : n ∈ m.children := by
  rcases mem_children_of_mem_placesFrom rfl root hp with hroot | hchild
  · cases hroot
  · exact hchild

theorem node_eq_of_mem_places {root n : Node} (hp : ⟨n, []⟩ ∈ root.places) : n = root := by
  rw [places, placesFrom_eq] at hp
  rcases List.mem_cons.mp hp with hself | hbelow
  · exact congrArg Place.node hself
  · obtain ⟨j, -, hj⟩ := suffix_of_mem_placesOfAll root.children hbelow
    cases List.suffix_nil.mp hj

/-- What holds of the root, and of a child wherever it holds of the parent, holds of every place. -/
theorem places_induction {root : Node} {P : Place → Prop} (hroot : P (.root root))
    (hchild : ∀ (m : Node) (rest : List (Node × Nat)) (n : Node) (i : Nat),
      ⟨m, rest⟩ ∈ root.places → n ∈ m.children → P ⟨m, rest⟩ → P ⟨n, (m, i) :: rest⟩) :
    ∀ p ∈ root.places, P p := by
  rintro ⟨n, above⟩ hp
  induction above generalizing n with
  | nil =>
    rw [node_eq_of_mem_places hp]
    exact hroot
  | cons a rest ih =>
    obtain ⟨m, i⟩ := a
    have hm : ⟨m, rest⟩ ∈ root.places := mem_places_of_above hp List.suffix_rfl
    exact hchild m rest n i hm (mem_children_of_mem_places hp) (ih m hm)

/-! ## Conditions on all nodes -/

/-- A condition holds of a node and of all below it. -/
inductive Everywhere (P : Node → Prop) : Node → Prop where
  | intro {n : Node} (self : P n) (children : ∀ c ∈ n.children, Everywhere P c) : Everywhere P n

section Everywhere

variable {P : Node → Prop} {n : Node}

theorem everywhere_iff : n.Everywhere P ↔ P n ∧ ∀ c ∈ n.children, c.Everywhere P :=
  ⟨fun ⟨hself, hchildren⟩ => ⟨hself, hchildren⟩, fun ⟨hself, hchildren⟩ => ⟨hself, hchildren⟩⟩

theorem Everywhere.of_place (h : n.Everywhere P) : ∀ p ∈ n.places, p.node.Everywhere P := by
  refine places_induction h fun m rest c i _ hc hm => ?_
  exact (everywhere_iff.mp hm).2 c hc

theorem Everywhere.of_mem_places {p : Place} (h : n.Everywhere P) (hp : p ∈ n.places) :
    P p.node :=
  (everywhere_iff.mp (h.of_place p hp)).1

mutual

theorem everywhere_of_placesFrom {above : List (Node × Nat)} :
    (n : Node) → (∀ p ∈ n.placesFrom above, P p.node) → n.Everywhere P
  | ⟨kind, named, role, span, children⟩, h => by
    rw [placesFrom_eq] at h
    obtain ⟨hself, hbelow⟩ := List.forall_mem_cons.mp h
    exact ⟨hself, everywhere_of_placesOfAll children hbelow⟩

theorem everywhere_of_placesOfAll {parent : Node} {above : List (Node × Nat)} {i : Nat} :
    (ns : List Node) → (∀ p ∈ placesOfAll parent above i ns, P p.node) →
      ∀ n ∈ ns, n.Everywhere P
  | [], _ => List.forall_mem_nil _
  | n :: rest, h => by
    rw [placesOfAll] at h
    obtain ⟨hfirst, hrest⟩ := List.forall_mem_append.mp h
    exact List.forall_mem_cons.mpr
      ⟨everywhere_of_placesFrom n hfirst, everywhere_of_placesOfAll rest hrest⟩

end

theorem everywhere_iff_places : n.Everywhere P ↔ ∀ p ∈ n.places, P p.node :=
  ⟨fun h _ => h.of_mem_places, everywhere_of_placesFrom n⟩

instance [DecidablePred P] : Decidable (n.Everywhere P) :=
  decidable_of_iff (∀ p ∈ n.places, P p.node) everywhere_iff_places.symm

end Everywhere

/-! ## Routes -/

/-- The positions among children that are passed on a way, from the root on. -/
def routeOf (above : List (Node × Nat)) : List Nat := (above.map (·.2)).reverse

theorem routeOf_append (more above : List (Node × Nat)) :
    routeOf (more ++ above) = routeOf above ++ routeOf more := by
  rw [routeOf, List.map_append, List.reverse_append]
  rfl

theorem routeOf_child (parent : Node) (i : Nat) (above : List (Node × Nat)) :
    routeOf ((parent, i) :: above) = routeOf above ++ [i] := List.reverse_cons

mutual

theorem pairwise_placesFrom (above : List (Node × Nat)) : (n : Node) →
    (n.placesFrom above).Pairwise fun p q => routeOf p.above < routeOf q.above
  | ⟨kind, named, role, span, children⟩ => by
    rw [placesFrom_eq, List.pairwise_cons]
    refine ⟨fun q hq => ?_, pairwise_placesOfAll _ above 0 children⟩
    obtain ⟨j, -, more, hmore⟩ := suffix_of_mem_placesOfAll children hq
    rw [← hmore, routeOf_append, routeOf_child, List.append_assoc]
    conv_lhs => rw [← List.append_nil (routeOf above)]
    exact List.append_left_lt (List.nil_lt_cons _ _)

theorem pairwise_placesOfAll (parent : Node) (above : List (Node × Nat)) (i : Nat) :
    (ns : List Node) → (placesOfAll parent above i ns).Pairwise fun p q =>
      routeOf p.above < routeOf q.above
  | [] => by
    rw [placesOfAll]
    exact List.Pairwise.nil
  | n :: rest => by
    rw [placesOfAll, List.pairwise_append]
    refine ⟨pairwise_placesFrom _ n, pairwise_placesOfAll parent above (i + 1) rest, ?_⟩
    intro p hp q hq
    obtain ⟨more, hmore⟩ := suffix_of_mem_placesFrom n hp
    obtain ⟨j, hij, more', hmore'⟩ := suffix_of_mem_placesOfAll rest hq
    have hlt : i < j := hij
    rw [← hmore, ← hmore', routeOf_append, routeOf_append, routeOf_child, routeOf_child,
      List.append_assoc, List.append_assoc]
    exact List.append_left_lt (List.cons_lt_cons_iff.mpr (Or.inl hlt))

end

/-- Places are listed in the order of their routes: what is above another place comes first, and
what is beside another place if it stands further to the left. -/
theorem pairwise_places (root : Node) :
    root.places.Pairwise fun p q => routeOf p.above < routeOf q.above :=
  pairwise_placesFrom [] root

theorem nodup_ways (root : Node) : (root.places.map Place.way).Nodup := by
  rw [List.Nodup, List.pairwise_map]
  refine (pairwise_places root).imp fun {p q} hlt hway => ?_
  have hroute : routeOf p.above = routeOf q.above := congrArg List.reverse hway
  exact List.lt_irrefl _ (hroute ▸ hlt)

/-- No place is listed twice. -/
theorem nodup_places (root : Node) : root.places.Nodup := (nodup_ways root).of_map _

theorem eq_of_way_eq {root : Node} {p q : Place} (hp : p ∈ root.places) (hq : q ∈ root.places)
    (hway : p.way = q.way) : p = q :=
  List.inj_on_of_nodup_map (nodup_ways root) hp hq hway

end SourceFacts.Syntax.Node
