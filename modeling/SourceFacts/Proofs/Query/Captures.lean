import SourceFacts.Proofs.Syntax.Places
import SourceFacts.Query.Search

/-!
# What matches capture

What a match captures stands in the tree that is searched (`mem_places_of_mem_captures`). An
attempt captures nodes that it enters, and their parents (`Attempt.within_of_mem_enter`); setting
attempts against each other adds nothing (`Attempt.within_settle`). So the walk of a tree keeps to
the places of the tree (`Walk.Within.tree`).
-/

namespace SourceFacts.Query

open Syntax

variable {P : Place → Prop} {steps : Array Step} {x : Site} {a b : Attempt} {m : Match}
  {as : List Attempt}

/-- All captures are of places of some kind. -/
def Within (P : Place → Prop) (captures : List Capture) : Prop := ∀ c ∈ captures, P c.place

theorem Within.append {cs ds : List Capture} (hcs : Within P cs) (hds : Within P ds) :
    Within P (cs ++ ds) := List.forall_mem_append.mpr ⟨hcs, hds⟩

theorem within_nil : Within P [] := List.forall_mem_nil _

/-- A place is captured under several numbers. -/
theorem within_at {p : Place} (h : P p) (indices : List Nat) : Within P (indices.map (⟨·, p⟩)) :=
  List.forall_mem_map.mpr fun _ _ => h

/-! ## Attempts -/

namespace Attempt

theorem captures_of_mem_branches {fuel : Nat} (h : b ∈ branches steps fuel a) :
    b.captures = a.captures := by
  induction fuel generalizing a with
  | zero => rw [List.mem_singleton.mp h]
  | succ fuel ih =>
    unfold branches at h
    split at h
    · rw [List.mem_singleton.mp h]
    · split at h
      · rw [List.mem_singleton.mp h]
      · split at h
        · exact (ih h).trans rfl
        · rcases List.mem_append.mp h with hhere | hother
          · split at hhere
            · exact (ih hhere).trans rfl
            · rw [List.mem_singleton.mp hhere]
          · exact (ih hother).trans rfl

/-- An attempt that enters a node captures at most the node and its parent. -/
theorem within_of_mem_enter (ha : Within P a.captures) (hx : P x.place)
    (hparent : ∀ p, x.place.parent? = some p → P p) (h : b ∈ a.enter steps x) :
    Within P b.captures := by
  have hsame : ∀ {b : Attempt}, b ∈ [{ a with waits := false }] → Within P b.captures :=
    fun hb => List.mem_singleton.mp hb ▸ ha
  have hstays : ∀ {c : Prop} [Decidable c],
      b ∈ (if c then [{ a with waits := false }] else []) → Within P b.captures := by
    intro c _ hb
    split at hb
    · exact hsame hb
    · cases hb
  unfold enter at h
  dsimp only at h
  -- There may be no step to take, or the node may be at another depth, or may not fit.
  split at h
  case h_1 => exact hsame h
  split at h
  case h_1 => exact hsame h
  split at h
  case isTrue => exact hsame h
  split at h
  case isTrue => exact hstays h
  split at h
  case h_1 => exact hstays h
  case h_2 above habove =>
    have habove : Within P above := by
      split at habove
      · obtain ⟨p, hp, rfl⟩ := Option.map_eq_some_iff.mp habove
        exact within_at (hparent p hp) _
      · obtain rfl := Option.some.inj habove
        exact within_nil
    rcases List.mem_append.mp h with honward | hlater
    · rw [captures_of_mem_branches honward]
      exact (ha.append habove).append (within_at hx _)
    · exact hstays hlater

/-- What is left of attempts that are set against each other has captured what they had. -/
theorem captures_of_contend (a : Attempt) (as : List Attempt) :
    (∀ b, (contend a as).1 = some b → b.captures = a.captures) ∧
      ∀ b ∈ (contend a as).2, ∃ b' ∈ as, b.captures = b'.captures := by
  induction as generalizing a with
  | nil => exact ⟨fun b hb => by rw [← Option.some.inj hb], List.forall_mem_nil _⟩
  | cons first rest ih =>
    have hlater : ∀ {a' b : Attempt}, b ∈ (contend a' rest).2 →
        ∃ b' ∈ first :: rest, b.captures = b'.captures := by
      intro a' b hb
      obtain ⟨b', hb', hsame⟩ := (ih a').2 b hb
      exact ⟨b', List.mem_cons_of_mem _ hb', hsame⟩
    unfold contend
    split
    · exact ⟨fun b hb => by rw [← Option.some.inj hb], fun b hb => ⟨b, hb, rfl⟩⟩
    · dsimp only
      split
      · exact ⟨(ih a).1, fun b hb => hlater hb⟩
      · split
        · refine ⟨(fun b hb => nomatch hb), fun b hb => ?_⟩
          rcases List.mem_cons.mp hb with rfl | hb
          · exact ⟨first, List.mem_cons_self, rfl⟩
          · exact ⟨b, List.mem_cons_of_mem _ hb, rfl⟩
        · refine ⟨fun b hb => ((ih _).1 b hb).trans rfl, fun b hb => ?_⟩
          rcases List.mem_cons.mp hb with rfl | hb
          · exact ⟨first, List.mem_cons_self, rfl⟩
          · exact hlater hb

/-- Attempts that are settled, and matches that come of it, have captured what there was. -/
theorem within_settle {fuel : Nat} (has : ∀ a ∈ as, Within P a.captures) :
    (∀ a ∈ (settle steps fuel as).1, Within P a.captures) ∧
      ∀ m ∈ (settle steps fuel as).2, Within P m.captures := by
  induction fuel generalizing as with
  | zero => exact ⟨has, List.forall_mem_nil _⟩
  | succ fuel ih =>
    cases as with
    | nil => exact ⟨has, List.forall_mem_nil _⟩
    | cons a rest =>
      obtain ⟨hfirst, hrest⟩ := captures_of_contend a rest
      have hleft : ∀ b ∈ (contend a rest).2, Within P b.captures := by
        intro b hb
        obtain ⟨b', hb', hsame⟩ := hrest b hb
        exact hsame ▸ has b' (List.mem_cons_of_mem _ hb')
      obtain ⟨hattempts, hfound⟩ := ih hleft
      unfold settle
      dsimp only
      split
      · exact ⟨hattempts, hfound⟩
      · rename_i b hb
        have hwithin : Within P b.captures := hfirst b hb ▸ has a List.mem_cons_self
        split
        · refine ⟨hattempts, fun m hm => ?_⟩
          rcases List.mem_cons.mp hm with rfl | hm
          · exact hwithin
          · exact hfound m hm
        · refine ⟨fun c hc => ?_, hfound⟩
          rcases List.mem_cons.mp hc with rfl | hc
          · exact hwithin
          · exact hattempts c hc

theorem mem_of_mem_insert (h : b ∈ insert a as) : b = a ∨ b ∈ as := by
  have hgo : ∀ before after : List Attempt, b ∈ insert.go a before after →
      b = a ∨ b ∈ before ∨ b ∈ after := by
    intro before
    induction before with
    | nil =>
      intro after hb
      rcases List.mem_cons.mp hb with hb | hb
      · exact Or.inl hb
      · exact Or.inr (Or.inr hb)
    | cons c before ih =>
      intro after hb
      unfold insert.go at hb
      grind
  rcases hgo _ _ h with hb | hb | hb
  · exact Or.inl hb
  · exact Or.inr (List.mem_reverse.mp hb)
  · exact absurd hb List.not_mem_nil

end Attempt

/-! ## Walks -/

namespace Walk

variable {q : Query}

/-- All captures of a walk are of places of some kind. -/
structure Within (P : Place → Prop) (w : Walk) : Prop where
  attempts : ∀ a ∈ w.attempts, Query.Within P a.captures
  found : ∀ m ∈ w.found, Query.Within P m.captures

namespace Within

theorem start {w : Walk} (h : w.Within P) (q : Query) (x : Site) (e : Entry) :
    (Walk.start q x w e).Within P := by
  unfold Walk.start
  split
  · exact h
  · split
    · refine ⟨fun a ha => ?_, h.found⟩
      rcases Attempt.mem_of_mem_insert ha with rfl | ha
      · exact within_nil
      · exact h.attempts a ha
    · exact h

theorem enter {w : Walk} (h : w.Within P) (hx : P x.place)
    (hparent : ∀ p, x.place.parent? = some p → P p) : (w.enter q x).Within P := by
  unfold Walk.enter
  dsimp only
  generalize hw' : List.foldl (Walk.start q x) w _ = w'
  have hstart : w'.Within P :=
    hw' ▸ List.foldlRecOn _ _ h fun w hw e _ => hw.start q x e
  have hentered : ∀ b ∈ w'.attempts.flatMap (Attempt.enter q.steps x),
      Query.Within P b.captures := by
    intro b hb
    obtain ⟨a, ha, hba⟩ := List.mem_flatMap.mp hb
    exact Attempt.within_of_mem_enter (hstart.attempts a ha) hx hparent hba
  obtain ⟨hattempts, hfound⟩ := Attempt.within_settle hentered
  refine ⟨hattempts, fun m hm => ?_⟩
  rcases List.mem_append.mp hm with hm | hm
  · exact hfound m (List.mem_reverse.mp hm)
  · exact hstart.found m hm

theorem leave {w : Walk} {depth : Nat} (h : w.Within P) : (w.leave q depth).Within P := by
  refine ⟨fun a ha => h.attempts a (List.mem_of_mem_filter ha), fun m hm => ?_⟩
  rcases List.mem_append.mp hm with hm | hm
  · obtain ⟨a, ha, rfl⟩ := List.mem_map.mp (List.mem_reverse.mp hm)
    exact h.attempts a (List.mem_of_mem_filter ha)
  · exact h.found m hm

mutual

theorem tree {w : Walk} {depth : Nat} {above : List (Node × Nat)} {later : List Node}
    (h : w.Within P) : (n : Node) → (∀ p ∈ n.placesFrom above, P p) →
      (∀ p, (Place.mk n above).parent? = some p → P p) →
        (Walk.tree q depth above later w n).Within P
  | ⟨kind, named, role, span, children⟩, hplaces, hparent => by
    rw [Node.placesFrom_eq] at hplaces
    have hhere := hplaces _ List.mem_cons_self
    unfold Walk.tree
    exact (forest (h.enter hhere hparent) hhere children
      fun p hp => hplaces p (List.mem_cons_of_mem _ hp)).leave

theorem forest {w : Walk} {depth i : Nat} {parent : Node} {above : List (Node × Nat)}
    (h : w.Within P) (hparent : P ⟨parent, above⟩) : (ns : List Node) →
      (∀ p ∈ Node.placesOfAll parent above i ns, P p) →
        (Walk.forest q depth parent above i w ns).Within P
  | [], _ => by
    unfold Walk.forest
    exact h
  | n :: rest, hplaces => by
    rw [Node.placesOfAll] at hplaces
    unfold Walk.forest
    refine forest (tree h n (fun p hp => hplaces p (List.mem_append_left _ hp)) ?_) hparent rest
      fun p hp => hplaces p (List.mem_append_right _ hp)
    rintro p ⟨⟩
    exact hparent

end

end Within

end Walk

/-- What a match captures stands in the tree that is searched. -/
theorem mem_places_of_mem_captures {q : Query} {t : SourceText} {root : Node} {c : Capture}
    (hm : m ∈ q.matchesOf t root) (hc : c ∈ m.captures) : c.place ∈ root.places := by
  have hnone : (⟨[], []⟩ : Walk).Within (· ∈ root.places) :=
    ⟨List.forall_mem_nil _, List.forall_mem_nil _⟩
  have hwalk : (Walk.tree q 0 [] [] ⟨[], []⟩ root).Within (· ∈ root.places) :=
    hnone.tree root (fun p hp => hp) fun p hp => nomatch hp
  exact hwalk.found m (List.mem_reverse.mp (List.mem_of_mem_filter hm)) c hc

theorem mem_places_of_place? {q : Query} {t : SourceText} {root : Node} {p : Place}
    {index : Option Nat} (hm : m ∈ q.matchesOf t root) (h : m.place? index = some p) :
    p ∈ root.places := by
  unfold Match.place? at h
  split at h
  · cases h
  · obtain ⟨c, hc, rfl⟩ := Option.map_eq_some_iff.mp h
    exact mem_places_of_mem_captures hm (List.mem_of_find?_eq_some hc)

end SourceFacts.Query
