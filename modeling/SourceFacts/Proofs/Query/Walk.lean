import Mathlib.Data.List.Infix
import SourceFacts.Query.Search

/-!
# Walks

An attempt passes a node at another depth (`Attempt.enter_elsewhere`). Of its children, it takes
the one in the role asked for (`Attempt.enter_role`) and passes the others
(`Attempt.enter_otherRole`).

A walk keeps what it has found (`Walk.found_suffix_tree`). So a query that is complete when the
root is entered matches every tree with such a root, whatever is in it (`mem_matchesOf_of_enter`).
-/

namespace SourceFacts.Query

open Syntax

namespace Attempt

variable {steps : Array Step} {x : Site} {a : Attempt} {s : Step} {d : Nat} {role : String}

theorem enter_elsewhere (hs : steps[a.step]? = some s)
    (hdepth : ∀ d, s.depth = some d → a.base + d ≠ x.depth) :
    a.enter steps x = [{ a with waits := false }] := by
  cases hd : s.depth with
  | none => simp [enter, hs, hd]
  | some d => simp [enter, hs, hd, hdepth d hd]

/-- A node in another role does not fit; the attempt goes on with a later sibling, if there is
one. -/
theorem enter_otherRole (hs : steps[a.step]? = some s) (hdepth : s.depth = some d)
    (hx : a.base + d = x.depth) (hrole : s.role = some role)
    (hnode : x.place.node.role ≠ some role) (hplain : s.immediate = false ∧ a.pressed = false) :
    a.enter steps x = if x.later = [] then [] else [{ a with waits := false }] := by
  have hfits : fits x s = false := by simp [fits, hrole, hnode]
  have hlater : laterMayFit x { a with waits := false } s = !x.later.isEmpty := by
    simp [laterMayFit, hplain, hrole, hnode]
  cases hsiblings : x.later with
  | nil => simp [enter, hs, hdepth, hx, hfits, hlater, hsiblings]
  | cons n rest => simp [enter, hs, hdepth, hx, hfits, hlater, hsiblings]

/-- A node of the kind and in the role asked for is taken, if no later sibling is in that role. -/
theorem enter_role {kind : String} {named : Bool} (hs : steps[a.step]? = some s)
    (hdepth : s.depth = some d) (hx : a.base + d = x.depth) (hrole : s.role = some role)
    (hnode : x.place.node.role = some role) (htarget : s.target = .kind kind named)
    (hkind : s.target.accepts x.place.node = true)
    (hplain : s.lastChild = false ∧ s.absent = [] ∧ a.needsParent = false)
    (honce : ∀ m ∈ x.later, m.role ≠ some role) :
    a.enter steps x = branches steps (2 * steps.size)
      { a with
        step := a.step + 1
        captures := a.captures ++ s.captures.map (⟨·, x.place⟩)
        pressed := false
        waits := false } := by
  have hfits : fits x s = true := by simp [fits, hrole, hnode, hkind, hplain]
  have hany : (x.later.any fun m => m.role == some role) = false := by simpa using honce
  have hlater : ∀ b : Attempt, laterMayFit x b s = false := fun b => by
    simp [laterMayFit, hrole, hnode, hany]
  simp [enter, hs, hdepth, hx, hfits, hlater, hplain, htarget]

end Attempt

namespace Walk

theorem found_start (q : Query) (x : Site) (w : Walk) (e : Entry) :
    (start q x w e).found = w.found := by
  unfold start
  split
  · rfl
  · split <;> rfl

theorem found_suffix_enter (q : Query) (x : Site) (w : Walk) :
    w.found <:+ (w.enter q x).found := by
  have hstart : ∀ (entries : List Entry) (w : Walk),
      (entries.foldl (start q x) w).found = w.found := by
    intro entries
    induction entries with
    | nil => intro w; rfl
    | cons e entries ih => intro w; rw [List.foldl_cons, ih, found_start]
  simp only [enter, hstart]
  exact List.suffix_append _ _

mutual

/-- What has been found stays found while a tree is walked. -/
theorem found_suffix_tree (q : Query) (depth : Nat) (above : List (Node × Nat))
    (later : List Node) (w : Walk) : ∀ n : Node, w.found <:+ (tree q depth above later w n).found
  | ⟨kind, named, role, span, children⟩ => by
    have henter := found_suffix_enter q
      ⟨⟨⟨kind, named, role, span, children⟩, above⟩, depth, later⟩ w
    have hforest := found_suffix_forest q (depth + 1) ⟨kind, named, role, span, children⟩ above 0
      (w.enter q ⟨⟨⟨kind, named, role, span, children⟩, above⟩, depth, later⟩) children
    exact (henter.trans hforest).trans (List.suffix_append _ _)

theorem found_suffix_forest (q : Query) (depth : Nat) (parent : Node) (above : List (Node × Nat))
    (i : Nat) (w : Walk) : ∀ ns : List Node, w.found <:+ (forest q depth parent above i w ns).found
  | [] => List.suffix_rfl
  | n :: rest => by
    have htree := found_suffix_tree q depth ((parent, i) :: above) rest w n
    have hrest := found_suffix_forest q depth parent above (i + 1)
      (tree q depth ((parent, i) :: above) rest w n) rest
    exact htree.trans hrest

end

end Walk

/-- What is found on entering the root is among the matches, if it meets its conditions. -/
theorem mem_matchesOf_of_enter {q : Query} {t : SourceText} {root : Node} {m : Match}
    (hm : m ∈ ((⟨[], []⟩ : Walk).enter q ⟨⟨root, []⟩, 0, []⟩).found)
    (hholds : ∀ c ∈ (q.predicates[m.pattern]?).getD [], c.holds t m = true) :
    m ∈ q.matchesOf t root := by
  obtain ⟨kind, named, role, span, children⟩ := root
  have hforest := Walk.found_suffix_forest q 1 ⟨kind, named, role, span, children⟩ [] 0
    ((⟨[], []⟩ : Walk).enter q ⟨⟨⟨kind, named, role, span, children⟩, []⟩, 0, []⟩) children
  have hwalk : m ∈ (Walk.tree q 0 [] [] ⟨[], []⟩ ⟨kind, named, role, span, children⟩).found :=
    (hforest.trans (List.suffix_append _ _)).subset hm
  rw [matchesOf, List.mem_filter, List.mem_reverse, List.all_eq_true]
  exact ⟨hwalk, hholds⟩

end SourceFacts.Query
