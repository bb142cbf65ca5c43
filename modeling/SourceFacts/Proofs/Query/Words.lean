import SourceFacts.Query.Reader

/-!
# Queries in larger vocabularies

A query that one vocabulary has the words for is read alike with every larger one
(`Query.ofText_mono`): the reader asks a vocabulary only whether it knows something, and goes on
in one way if it does. So for a query to be read, few words have to be looked up in the grammar.
-/

namespace SourceFacts

namespace Syntax.Vocabulary

/-- A vocabulary is at most another one if that knows all of its words. -/
structure Le (v w : Vocabulary) : Prop where
  hasKind : ∀ kind named, v.hasKind kind named = true → w.hasKind kind named = true
  hasRole : ∀ role, v.hasRole role = true → w.hasRole role = true
  parts : ∀ kind ps, v.parts? kind = some ps → ∃ qs, w.parts? kind = some qs ∧ ps ⊆ qs
  extras : v.extras ⊆ w.extras
  families : w.families = v.families

theorem Le.family? {v w : Vocabulary} (h : v.Le w) (name : String) :
    w.family? name = v.family? name := by
  rw [Vocabulary.family?, Vocabulary.family?, h.families]

end Syntax.Vocabulary

namespace Query

open Syntax (Vocabulary Part)

/-! ## Patterns that fit -/

namespace Pattern

variable {extras extras' : List String} {parts parts' : List Part}

mutual

/-- With more parts to choose from, more patterns fit. -/
theorem fits_mono (hextras : extras ⊆ extras') (hparts : parts ⊆ parts') (role : Option String) :
    (p : Pattern) → fits extras parts role p = true → fits extras' parts' role p = true
  | .node target _ _ _, h => by
    rw [fits, Bool.or_eq_true, List.any_eq_true, List.any_eq_true] at h ⊢
    rcases h with ⟨part, hmem, hadmits⟩ | ⟨kind, hmem, hadmits⟩
    · exact Or.inl ⟨part, hparts hmem, hadmits⟩
    · exact Or.inr ⟨kind, hextras hmem, hadmits⟩
  | .choice branches, h => by
    rw [fits] at h ⊢
    exact anyFits_mono hextras hparts role branches h
  | .group members, h => by
    rw [fits] at h ⊢
    exact allFit_mono hextras hparts role members h
  | .inRole name p, h | .captured _ p, h | .next p, h | .oneOrMore p, h => by
    rw [fits] at h ⊢
    exact fits_mono hextras hparts _ p h
  | .anyNumber _, _ | .perhaps _, _ => by rw [fits]

theorem anyFits_mono (hextras : extras ⊆ extras') (hparts : parts ⊆ parts')
    (role : Option String) : (ps : List Pattern) →
      anyFits extras parts role ps = true → anyFits extras' parts' role ps = true
  | [], h => by rw [anyFits] at h; cases h
  | p :: rest, h => by
    rw [anyFits, Bool.or_eq_true] at h ⊢
    exact h.imp (fits_mono hextras hparts role p) (anyFits_mono hextras hparts role rest)

theorem allFit_mono (hextras : extras ⊆ extras') (hparts : parts ⊆ parts')
    (role : Option String) : (ps : List Pattern) →
      allFit extras parts role ps = true → allFit extras' parts' role ps = true
  | [], _ => by rw [allFit]
  | p :: rest, h => by
    rw [allFit, Bool.and_eq_true] at h ⊢
    exact h.imp (fits_mono hextras hparts role p) (allFit_mono hextras hparts role rest)

end

end Pattern

variable {v w : Vocabulary}

theorem canContain_mono (h : v.Le w) (target : Target) (children : List Pattern)
    (hfits : canContain v target children = true) : canContain w target children = true := by
  unfold canContain at hfits ⊢
  split at hfits
  · rename_i name
    simp only [Bool.or_eq_true, Option.any_eq_true] at hfits ⊢
    rcases hfits with hnone | ⟨ps, hps, hall⟩
    · exact Or.inl hnone
    · obtain ⟨qs, hqs, hsub⟩ := h.parts name ps hps
      have hextras : Syntax.errorKind :: v.extras ⊆ Syntax.errorKind :: w.extras :=
        List.cons_subset_cons _ h.extras
      exact Or.inr ⟨qs, hqs, Pattern.allFit_mono hextras hsub none children hall⟩
  · rfl

/-! ## Readers that agree -/

namespace Reader

variable {α β : Type}

/-- Whatever one reader reads, another one reads alike. -/
def Le (a b : Reader α) : Prop := ∀ d r, a d = .ok r → b d = .ok r

theorem Le.refl (a : Reader α) : a.Le a := fun _ _ h => h

theorem Le.bind {a b : Reader α} {f g : α → Reader β} (hab : a.Le b) (hfg : ∀ x, (f x).Le (g x)) :
    Le (a >>= f) (b >>= g) := by
  intro d r h
  cases ha : a d with
  | error fault =>
    simp only [Bind.bind, StateT.bind, Except.bind, ha] at h
    cases h
  | ok next =>
    simp only [Bind.bind, StateT.bind, Except.bind, ha, hab d next ha] at h ⊢
    exact hfg next.1 next.2 r h

/-- A question that may be answered with yes more often. -/
theorem Le.ite_throw {p q : Prop} [Decidable p] [Decidable q] {a b : Reader α} (hpq : p → q)
    (hab : a.Le b) (fault : Fault) :
    Le (if p then a else throw fault) (if q then b else throw fault) := by
  by_cases hp : p
  · rw [if_pos hp, if_pos (hpq hp)]
    exact hab
  · rw [if_neg hp]
    intro d r h
    cases h

theorem Le.throw_ite {p q : Prop} [Decidable p] [Decidable q] {a b : Reader α} (hqp : q → p)
    (hab : a.Le b) (fault : Fault) :
    Le (if p then throw fault else a) (if q then throw fault else b) := by
  by_cases hp : p
  · rw [if_pos hp]
    intro d r h
    cases h
  · rw [if_neg hp, if_neg fun hq => hp (hqp hq)]
    exact hab

end Reader

/-! ## Reading -/

theorem readTarget_mono (h : v.Le w) (s : List Char) :
    (readTarget v s).Le (readTarget w s) := by
  unfold readTarget
  refine .bind (.refl _) fun ⟨name, rest⟩ => ?_
  dsimp only
  split
  · exact .refl _
  · split
    · split
      · exact .bind (.refl _) fun text => .ite_throw (h.hasKind _ _) (.refl _) _
      · exact .refl _
      · exact .bind (.refl _) fun name => .ite_throw (h.hasKind _ _) (.refl _) _
    · rw [h.family?]
      have hknown : (!w.hasKind name true) = true → (!v.hasKind name true) = true := by
        simpa using mt (h.hasKind name true)
      split
      · refine .bind (.refl _) fun ⟨member, rest⟩ => ?_
        refine .throw_ite ?_ (.refl _) _
        simpa using mt (h.hasKind member true)
      · exact .refl _
      · exact .throw_ite hknown (.refl _) _

/-- With some fuel, all readers of patterns read alike in two vocabularies. -/
structure Alike (v w : Vocabulary) (fuel : Nat) : Prop where
  pattern : ∀ s, (readPattern v fuel s).Le (readPattern w fuel s)
  branches : ∀ acc s, (readBranches v fuel acc s).Le (readBranches w fuel acc s)
  members : ∀ immediate acc s,
    (readMembers v fuel immediate acc s).Le (readMembers w fuel immediate acc s)
  children : ∀ target absent acc immediate s,
    (readChildren v fuel target absent acc immediate s).Le
      (readChildren w fuel target absent acc immediate s)

namespace Alike

variable {fuel : Nat}

theorem succ_pattern (h : v.Le w) (ih : Alike v w fuel) (s : List Char) :
    (readPattern v (fuel + 1) s).Le (readPattern w (fuel + 1) s) := by
  unfold readPattern
  split
  · exact .bind (ih.branches _ _) fun branches => .refl _
  · split
    · exact .bind (ih.members _ _ _) fun members => .refl _
    · exact .bind (ih.members _ _ _) fun members => .refl _
    · exact .bind (ih.members _ _ _) fun members => .refl _
    · exact .refl _
    · exact .refl _
    · refine .bind (readTarget_mono h _) fun ⟨target, rest⟩ => ?_
      exact .bind (ih.children _ _ _ _ _) fun node => .refl _
  · exact .bind (.refl _) fun text => .ite_throw (h.hasKind _ _) (.refl _) _
  · exact .refl _
  · refine .bind (.refl _) fun ⟨role, rest⟩ => ?_
    dsimp only
    split
    · refine .bind (ih.pattern _) fun ⟨p, rest⟩ => .throw_ite ?_ (.refl _) _
      simpa using mt (h.hasRole role)
    · exact .refl _

theorem succ_branches (ih : Alike v w fuel) (acc : List Pattern) (s : List Char) :
    (readBranches v (fuel + 1) acc s).Le (readBranches w (fuel + 1) acc s) := by
  unfold readBranches
  split
  · exact .refl _
  · exact .bind (ih.pattern _) fun p => ih.branches _ _

theorem succ_members (ih : Alike v w fuel) (immediate : Bool) (acc : List Pattern)
    (s : List Char) :
    (readMembers v (fuel + 1) immediate acc s).Le (readMembers w (fuel + 1) immediate acc s) := by
  unfold readMembers
  split
  · exact .throw_ite id (ih.members _ _ _) _
  · exact .refl _
  · exact .bind (ih.pattern _) fun p => ih.members _ _ _

theorem succ_children (h : v.Le w) (ih : Alike v w fuel) (target : Target) (absent : List String)
    (acc : List Pattern) (immediate : Bool) (s : List Char) :
    (readChildren v (fuel + 1) target absent acc immediate s).Le
      (readChildren w (fuel + 1) target absent acc immediate s) := by
  unfold readChildren
  split
  · refine .bind (.refl _) fun ⟨role, rest⟩ => ?_
    exact .ite_throw (h.hasRole role) (ih.children _ _ _ _ _) _
  · exact .throw_ite id (ih.children _ _ _ _ _) _
  · exact .throw_ite id (.ite_throw (canContain_mono h _ _) (.refl _) _) _
  · exact .bind (ih.pattern _) fun p => ih.children _ _ _ _ _

end Alike

theorem alike (h : v.Le w) (fuel : Nat) : Alike v w fuel := by
  induction fuel with
  | zero =>
    refine ⟨fun s => ?_, fun acc s => ?_, fun immediate acc s => ?_,
      fun target absent acc immediate s => ?_⟩
    · unfold readPattern
      exact .refl _
    · unfold readBranches
      exact .refl _
    · unfold readMembers
      exact .refl _
    · unfold readChildren
      exact .refl _
  | succ fuel ih => exact ⟨ih.succ_pattern h, ih.succ_branches, ih.succ_members, ih.succ_children h⟩

theorem readAll_mono (h : v.Le w) (fuel : Nat) (acc : List (Option Pattern × List Predicate))
    (s : List Char) : (readAll v fuel acc s).Le (readAll w fuel acc s) := by
  induction fuel generalizing acc s with
  | zero => exact .refl _
  | succ fuel ih =>
    unfold readAll
    split
    · exact .refl _
    · refine .bind (.refl _) fun _ => ?_
      refine .bind ((alike h _).pattern _) fun ⟨p, rest⟩ => ?_
      exact .bind (.refl _) fun draft => ih _ _

/-- What is read with a vocabulary is read alike with a larger one. -/
theorem ofText_mono (h : v.Le w) {text : String} {q : Query} (hq : ofText v text = .ok q) :
    ofText w text = .ok q := by
  unfold ofText at hq ⊢
  cases hread : (readAll v (text.toList.length + 1) [] text.toList).run ⟨#[], []⟩ with
  | error fault =>
    simp only [hread, bind, Except.bind] at hq
    cases hq
  | ok result =>
    have hlarger : (readAll w (text.toList.length + 1) [] text.toList).run ⟨#[], []⟩ = .ok result :=
      readAll_mono h _ _ _ _ _ hread
    simp only [hread, bind, Except.bind] at hq
    simp only [hlarger, bind, Except.bind]
    exact hq

/-! ## Telling what is read -/

deriving instance DecidableEq for Target

deriving instance DecidableEq for Step

deriving instance DecidableEq for Entry

/-- Whether a text is read as the given query, which states no conditions. -/
def readsAs (v : Vocabulary) (text : String) (q : Query) : Bool :=
  match ofText v text with
  | .ok q' => decide (q'.steps.toList = q.steps.toList) && decide (q'.entries = q.entries) &&
      decide (q'.captureNames = q.captureNames) &&
      decide (q'.predicates.toList.map List.length = q.predicates.toList.map fun _ => 0) &&
      q.predicates.toList.all List.isEmpty
  | .error _ => false

theorem eq_of_lengths {conditions conditions' : List (List Predicate)}
    (h : conditions'.map List.length = conditions.map fun _ => 0)
    (hnone : conditions.all List.isEmpty = true) : conditions' = conditions := by
  induction conditions generalizing conditions' with
  | nil => simpa using h
  | cons first rest ih =>
    obtain ⟨first', rest', rfl, hfirst, hrest⟩ := List.map_eq_cons_iff.mp h
    rw [List.all_cons, Bool.and_eq_true, List.isEmpty_iff] at hnone
    rw [List.eq_nil_of_length_eq_zero hfirst, hnone.1, ih hrest hnone.2]

theorem ofText_of_readsAs {text : String} {q : Query} (h : readsAs v text q = true) :
    ofText v text = .ok q := by
  unfold readsAs at h
  split at h
  · rename_i q' hq'
    simp only [Bool.and_eq_true, decide_eq_true_eq] at h
    obtain ⟨⟨⟨⟨hsteps, hentries⟩, hnames⟩, hlengths⟩, hnone⟩ := h
    have hpredicates : q'.predicates = q.predicates :=
      Array.toList_inj.mp (eq_of_lengths hlengths hnone)
    obtain ⟨steps, entries, predicates, names⟩ := q'
    rw [hq']
    congr
    exact Array.toList_inj.mp hsteps
  · cases h

end Query

end SourceFacts
