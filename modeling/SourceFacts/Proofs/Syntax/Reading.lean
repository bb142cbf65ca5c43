import SourceFacts.Proofs.Syntax.Places
import SourceFacts.Syntax.Grammar

/-!
# What a grammar reads

What stands in the trees of a grammar can be told from its rules alone. A bound says which nodes
some of the named rules leave to their surroundings, and which children the nodes of some kinds
have, apart from those that may stand anywhere. If every rule keeps to the bound by itself
(`Grammar.KeepsTo`), then so does everything that is read, in whatever order alternatives are
tried and readings are reused (`Grammar.KeepsTo.read`).
-/

namespace SourceFacts.Syntax

/-! ## Bounds -/

/-- Kinds of node, and whether the grammar names them; `none` if nothing is said of them. -/
abbrev Kinds := Option (List (String × Bool))

namespace Kinds

/-- The kinds of either. -/
def both (a b : Kinds) : Kinds := a.bind fun ks => b.map (ks ++ ·)

/-- Whether the kinds are among others. -/
def within (found bound : Kinds) : Bool :=
  bound.all fun ks => found.any fun fs => fs.all ks.contains

/-- Whether a node is of one of the kinds. -/
def Has (bound : Kinds) (n : Node) : Prop := ∀ ks, bound = some ks → (n.kind, n.named) ∈ ks

variable {a b found bound : Kinds} {n : Node}

theorem Has.mono (h : found.Has n) (hwithin : found.within bound = true) : bound.Has n := by
  rintro ks rfl
  obtain ⟨fs, rfl, hfs⟩ : ∃ fs, found = some fs ∧ ∀ k ∈ fs, k ∈ ks := by
    simpa [within, Option.any_eq_true] using hwithin
  exact hfs _ (h fs rfl)

theorem within_both_left (a b : Kinds) : a.within (both a b) = true := by
  cases a <;> cases b <;> simp +contextual [within, both]

theorem within_both_right (a b : Kinds) : b.within (both a b) = true := by
  cases a <;> cases b <;> simp +contextual [within, both]

theorem within_none (found : Kinds) : found.within none = true := rfl

end Kinds

/-- What is said of the trees of a grammar. -/
structure Bound where
  /-- The nodes that a named rule leaves to its surroundings. -/
  exposed : (name : String) → Kinds
  /-- The children that nodes of a kind may have. -/
  children : (kind : String) → Kinds
  /-- Kinds of node that may be children of any. -/
  extras : List String

/-- Whether a node has no other children than a bound says. -/
def Bound.Allows (b : Bound) (n : Node) : Prop :=
  ∀ c ∈ n.children, c.kind ∈ b.extras ∨ (b.children n.kind).Has c

theorem Bound.everywhere_of_childless {b : Bound} {n : Node} (h : n.children = []) :
    n.Everywhere b.Allows :=
  ⟨fun c hc => by simp [h] at hc, by simp [h]⟩

namespace Rule

variable {τ : Type}

/-- The kinds of node that a rule leaves to its surroundings, as far as a bound tells those of
the rules that it refers to. -/
def leaves (b : Bound) (ofTerm : τ → List (String × Bool)) : Rule τ → Kinds
  | .empty | .ahead _ | .unless _ => some []
  | .term t => some (ofTerm t)
  | .ref name => b.exposed name
  | .seq x y | .alt x y | .grow x y => (x.leaves b ofTerm).both (y.leaves b ofTerm)
  | .star r | .role _ r => r.leaves b ofTerm
  | .node kind _ | .wrap kind _ _ => some [(kind, true)]
  | .phrase text _ => some [(text, false)]

/-- Whether the nodes that a rule makes have no other children than a bound says. What stands
before a step is anything. -/
def keeps (b : Bound) (ofTerm : τ → List (String × Bool)) : Rule τ → Bool
  | .empty | .term _ | .ref _ => true
  | .seq x y | .alt x y | .grow x y => x.keeps b ofTerm && y.keeps b ofTerm
  | .star r | .ahead r | .unless r | .role _ r => r.keeps b ofTerm
  | .node kind r => (r.leaves b ofTerm).within (b.children kind) && r.keeps b ofTerm
  | .phrase text r => (r.leaves b ofTerm).within (b.children text) && r.keeps b ofTerm
  | .wrap kind _ r => Kinds.within none (b.children kind) && r.keeps b ofTerm

end Rule

/-! ## Pieces -/

/-- What a piece brings keeps to a bound, and its node is of one of the kinds. -/
structure Piece.Keeps (b : Bound) (kinds : Kinds) (p : Piece) : Prop where
  lead : ∀ n ∈ p.lead, n.kind ∈ b.extras ∧ n.Everywhere b.Allows
  body : ∀ n, p.body = some n → kinds.Has n ∧ n.Everywhere b.Allows

namespace Piece

variable {b : Bound} {kinds kinds' : Kinds} {ps qs : List Piece} {kind : String}

theorem Keeps.mono {p : Piece} (h : p.Keeps b kinds) (hwithin : kinds.within kinds' = true) :
    p.Keeps b kinds' :=
  ⟨h.lead, fun n hn => ⟨(h.body n hn).1.mono hwithin, (h.body n hn).2⟩⟩

theorem keeps_append (hps : ∀ p ∈ ps, p.Keeps b kinds) (hqs : ∀ p ∈ qs, p.Keeps b kinds) :
    ∀ p ∈ ps ++ qs, p.Keeps b kinds :=
  fun p hp => (List.mem_append.mp hp).elim (hps p) (hqs p)

/-- The nodes of pieces are theirs or may stand anywhere. -/
theorem keeps_nodes (h : ∀ p ∈ ps, p.Keeps b kinds) :
    ∀ n ∈ nodes ps, (n.kind ∈ b.extras ∨ kinds.Has n) ∧ n.Everywhere b.Allows := by
  induction ps with
  | nil => exact fun n hn => absurd hn List.not_mem_nil
  | cons p rest ih =>
    intro n hn
    have hp := h p List.mem_cons_self
    rcases List.mem_append.mp hn with hfirst | hrest
    · rcases List.mem_append.mp hfirst with hlead | hbody
      · exact ⟨Or.inl (hp.lead n hlead).1, (hp.lead n hlead).2⟩
      · have hself := hp.body n (Option.mem_toList.mp hbody)
        exact ⟨Or.inr hself.1, hself.2⟩
    · exact ih (fun q hq => h q (List.mem_cons_of_mem p hq)) n hrest

theorem keeps_wrap (h : ∀ p ∈ ps, p.Keeps b kinds)
    (hkind : kinds.within (b.children kind) = true) :
    ∀ q ∈ wrap kind ps, q.Keeps b (some [(kind, true)]) := by
  cases ps with
  | nil => exact fun q hq => absurd hq List.not_mem_nil
  | cons p rest =>
    have hp := h p List.mem_cons_self
    have hrest := keeps_nodes fun q hq => h q (List.mem_cons_of_mem p hq)
    have hchildren : ∀ c ∈ p.body.toList ++ nodes rest,
        (c.kind ∈ b.extras ∨ kinds.Has c) ∧ c.Everywhere b.Allows := by
      intro c hc
      rcases List.mem_append.mp hc with hbody | hnodes
      · have hself := hp.body c (Option.mem_toList.mp hbody)
        exact ⟨Or.inr hself.1, hself.2⟩
      · exact hrest c hnodes
    intro q hq
    obtain rfl := List.mem_singleton.mp hq
    refine ⟨hp.lead, fun n hn => ?_⟩
    obtain rfl := Option.some.inj hn
    refine ⟨by rintro ks ⟨⟩; exact List.mem_singleton_self _, ?_, fun c hc => (hchildren c hc).2⟩
    exact fun c hc => (hchildren c hc).1.imp_right fun hhas => hhas.mono hkind

theorem keeps_phrase {text : String} (h : ∀ p ∈ ps, p.Keeps b kinds)
    (hkind : kinds.within (b.children text) = true) :
    ∀ q ∈ phrase text ps, q.Keeps b (some [(text, false)]) := by
  intro q hq
  obtain ⟨p, hp, rfl⟩ := List.mem_map.mp hq
  have hkeeps := keeps_wrap h hkind p hp
  refine ⟨hkeeps.lead, fun n hn => ?_⟩
  obtain ⟨m, hm, rfl⟩ := Option.map_eq_some_iff.mp hn
  obtain ⟨hhas, heverywhere⟩ := hkeeps.body m hm
  obtain ⟨hself, hchildren⟩ := Node.everywhere_iff.mp heverywhere
  have hm : m.kind = text := by simpa using congrArg Prod.fst (List.mem_singleton.mp (hhas _ rfl))
  exact ⟨by rintro ks ⟨⟩; simp [hm], hself, hchildren⟩

theorem keeps_withRole {role : String} (h : ∀ p ∈ ps, p.Keeps b kinds) :
    ∀ q ∈ withRole role ps, q.Keeps b kinds := by
  intro q hq
  obtain ⟨p, hp, rfl⟩ := List.mem_map.mp hq
  refine ⟨(h p hp).lead, fun n hn => ?_⟩
  obtain ⟨m, hm, rfl⟩ := Option.map_eq_some_iff.mp hn
  obtain ⟨hhas, heverywhere⟩ := (h p hp).body m hm
  obtain ⟨hself, hchildren⟩ := Node.everywhere_iff.mp heverywhere
  exact ⟨hhas, hself, hchildren⟩

end Piece

/-! ## Readings -/

/-- The readings made so far keep to a bound. -/
def ChartKeeps (b : Bound) (chart : Chart) : Prop :=
  ∀ (name : String) (pos : Nat) (ps : List Piece) (next : Nat),
    chart[(name, pos)]? = some (some (ps, next)) → ∀ p ∈ ps, p.Keeps b (b.exposed name)

/-- What is read keeps to a bound, as do the readings made so far. -/
structure Kept (b : Bound) (kinds : Kinds) (result : Reading × Chart) : Prop where
  pieces : ∀ ps next, result.1 = some (ps, next) → ∀ p ∈ ps, p.Keeps b kinds
  chart : ChartKeeps b result.2

theorem chartKeeps_empty (b : Bound) : ChartKeeps b {} :=
  fun _ _ _ _ h => by simp at h

namespace Kept

variable {b : Bound} {kinds kinds' : Kinds} {chart : Chart} {ps : List Piece} {next : Nat}

theorem none (h : ChartKeeps b chart) : Kept b kinds (none, chart) := ⟨nofun, h⟩

theorem some (h : ChartKeeps b chart) (hps : ∀ p ∈ ps, p.Keeps b kinds) :
    Kept b kinds (some (ps, next), chart) := by
  refine ⟨fun qs last hqs => ?_, h⟩
  cases hqs
  exact hps

theorem mono {result : Reading × Chart} (h : Kept b kinds result)
    (hwithin : kinds.within kinds' = true) : Kept b kinds' result :=
  ⟨fun ps next hps p hp => (h.pieces ps next hps p hp).mono hwithin, h.chart⟩

/-- Something is made of the pieces that were read. -/
theorem map {result : Reading × Chart} (h : Kept b kinds result) {f : List Piece → List Piece}
    (hf : ∀ ps, (∀ p ∈ ps, p.Keeps b kinds) → ∀ q ∈ f ps, q.Keeps b kinds') :
    Kept b kinds' (match result with
      | (.none, chart) => (.none, chart)
      | (.some (ps, next), chart) => (.some (f ps, next), chart)) := by
  obtain ⟨_ | ⟨ps, next⟩, chart⟩ := result
  · exact .none h.chart
  · exact .some h.chart (hf ps (h.pieces ps next rfl))

end Kept

namespace Grammar

variable {τ : Type} {g : Grammar τ} {scan : Scanner τ} {ofTerm : τ → List (String × Bool)}
variable {b : Bound} {fuel : Nat}

/-- Every rule of a grammar keeps to a bound by itself, and so does every terminal. -/
structure KeepsTo (g : Grammar τ) (scan : Scanner τ) (ofTerm : τ → List (String × Bool))
    (b : Bound) : Prop where
  terms : ∀ (t : τ) (pos : Nat) (p : Piece) (next : Nat), scan t pos = some (p, next) →
    p.Keeps b (some (ofTerm t))
  rules : ∀ (name : String) (r : Rule τ), g.rules[name]? = some r →
    r.keeps b ofTerm = true ∧ (r.leaves b ofTerm).within (b.exposed name) = true

/-- With so much fuel, whatever a rule reads keeps to a bound. -/
def ReadsWithin (g : Grammar τ) (scan : Scanner τ) (ofTerm : τ → List (String × Bool))
    (b : Bound) (fuel : Nat) : Prop :=
  ∀ (rule : Rule τ) (left : List Piece) (pos : Nat) (chart : Chart),
    rule.keeps b ofTerm = true → (∀ p ∈ left, p.Keeps b none) → ChartKeeps b chart →
    Kept b (rule.leaves b ofTerm) (g.read scan fuel rule left pos chart)

/-- With so much fuel, a step wraps pieces of some kinds into such as it leaves itself. -/
def ExtendsWithin (g : Grammar τ) (scan : Scanner τ) (ofTerm : τ → List (String × Bool))
    (b : Bound) (fuel : Nat) : Prop :=
  ∀ (step : Rule τ) (left : List Piece) (pos : Nat) (chart : Chart) (kinds : Kinds),
    step.keeps b ofTerm = true → (step.leaves b ofTerm).within kinds = true →
    (∀ p ∈ left, p.Keeps b kinds) → ChartKeeps b chart →
    Kept b kinds (g.extend scan fuel step left pos chart)

theorem extendsWithin_succ (hread : g.ReadsWithin scan ofTerm b fuel)
    (hextend : g.ExtendsWithin scan ofTerm b fuel) : g.ExtendsWithin scan ofTerm b (fuel + 1) := by
  intro step left pos chart kinds hstep hkinds hleft hchart
  have hfound := hread step left pos chart hstep
    (fun p hp => (hleft p hp).mono (Kinds.within_none kinds)) hchart
  rw [Grammar.extend]
  revert hfound
  rcases g.read scan fuel step left pos chart with ⟨_ | ⟨ps, next⟩, chart'⟩ <;> intro hfound
  · exact .some hfound.chart hleft
  · have hps : ∀ p ∈ ps, p.Keeps b kinds :=
      fun p hp => (hfound.pieces ps next rfl p hp).mono hkinds
    simp only
    split
    · exact .some hfound.chart hleft
    · exact hextend step ps next chart' kinds hstep hkinds hps hfound.chart

/-- A named rule is read anew or found among the readings made so far. -/
theorem kept_ref (h : g.KeepsTo scan ofTerm b) (hread : g.ReadsWithin scan ofTerm b fuel)
    {name : String} {left : List Piece} {pos : Nat} {chart : Chart} (hchart : ChartKeeps b chart) :
    Kept b (b.exposed name) (g.read scan (fuel + 1) (.ref name) left pos chart) := by
  rw [Grammar.read]
  cases hfound : chart[(name, pos)]? with
  | some found => exact ⟨fun ps next hps => hchart name pos ps next (by rw [hfound, ← hps]), hchart⟩
  | none =>
    cases hrule : g.rules[name]? with
    | none => exact .none hchart
    | some r =>
      obtain ⟨hkeeps, hexposed⟩ := h.rules name r hrule
      have hnew := (hread r [] pos chart hkeeps (by simp) hchart).mono hexposed
      refine ⟨hnew.pieces, fun name' pos' ps next hps => ?_⟩
      -- The new reading is noted under its name, the others are as they were.
      simp only [Std.HashMap.getElem?_insert] at hps
      split at hps
      case isTrue hsame =>
        obtain ⟨rfl, -⟩ : name = name' ∧ pos = pos' := by simpa using hsame
        exact hnew.pieces ps next (by simpa using hps)
      case isFalse => exact hnew.chart name' pos' ps next hps

theorem kept_seq (hread : g.ReadsWithin scan ofTerm b fuel) {x y : Rule τ} {left : List Piece}
    {pos : Nat} {chart : Chart} (hkeeps : (Rule.seq x y).keeps b ofTerm = true)
    (hleft : ∀ p ∈ left, p.Keeps b none) (hchart : ChartKeeps b chart) :
    Kept b ((Rule.seq x y).leaves b ofTerm)
      (g.read scan (fuel + 1) (.seq x y) left pos chart) := by
  simp only [Rule.keeps, Bool.and_eq_true] at hkeeps
  rw [Grammar.read]
  have hx := (hread x left pos chart hkeeps.1 hleft hchart).mono
    (Kinds.within_both_left _ (y.leaves b ofTerm))
  revert hx
  rcases g.read scan fuel x left pos chart with ⟨_ | ⟨ps, next⟩, chart'⟩ <;> intro hx
  · exact .none hx.chart
  · simp only
    have hy := (hread y left next chart' hkeeps.2 hleft hx.chart).mono
      (Kinds.within_both_right (x.leaves b ofTerm) _)
    revert hy
    rcases g.read scan fuel y left next chart' with ⟨_ | ⟨qs, last⟩, chart''⟩ <;> intro hy
    · exact .none hy.chart
    · exact .some hy.chart (Piece.keeps_append (hx.pieces ps next rfl) (hy.pieces qs last rfl))

theorem kept_alt (hread : g.ReadsWithin scan ofTerm b fuel) {x y : Rule τ} {left : List Piece}
    {pos : Nat} {chart : Chart} (hkeeps : (Rule.alt x y).keeps b ofTerm = true)
    (hleft : ∀ p ∈ left, p.Keeps b none) (hchart : ChartKeeps b chart) :
    Kept b ((Rule.alt x y).leaves b ofTerm)
      (g.read scan (fuel + 1) (.alt x y) left pos chart) := by
  simp only [Rule.keeps, Bool.and_eq_true] at hkeeps
  rw [Grammar.read]
  have hx := (hread x left pos chart hkeeps.1 hleft hchart).mono
    (Kinds.within_both_left _ (y.leaves b ofTerm))
  revert hx
  rcases g.read scan fuel x left pos chart with ⟨_ | ⟨ps, next⟩, chart'⟩ <;> intro hx
  · exact (hread y left pos chart' hkeeps.2 hleft hx.chart).mono
      (Kinds.within_both_right (x.leaves b ofTerm) _)
  · exact hx

theorem kept_star (hread : g.ReadsWithin scan ofTerm b fuel) {r : Rule τ} {left : List Piece}
    {pos : Nat} {chart : Chart} (hkeeps : r.keeps b ofTerm = true)
    (hleft : ∀ p ∈ left, p.Keeps b none) (hchart : ChartKeeps b chart) :
    Kept b (r.leaves b ofTerm) (g.read scan (fuel + 1) (.star r) left pos chart) := by
  rw [Grammar.read]
  have hfirst := hread r left pos chart hkeeps hleft hchart
  revert hfirst
  rcases g.read scan fuel r left pos chart with ⟨_ | ⟨ps, next⟩, chart'⟩ <;> intro hfirst
  · exact .some hfirst.chart (by simp)
  · have hps := hfirst.pieces ps next rfl
    simp only
    split
    · exact .some hfirst.chart hps
    · have hrest := hread (.star r) left next chart' hkeeps hleft hfirst.chart
      revert hrest
      rcases g.read scan fuel (.star r) left next chart' with ⟨_ | ⟨qs, last⟩, chart''⟩ <;>
        intro hrest
      · exact .some hrest.chart hps
      · exact .some hrest.chart (Piece.keeps_append hps (hrest.pieces qs last rfl))

/-- The seed is wrapped by steps again and again. -/
theorem kept_grow (hread : g.ReadsWithin scan ofTerm b fuel)
    (hextend : g.ExtendsWithin scan ofTerm b fuel) {seed step : Rule τ} {left : List Piece}
    {pos : Nat} {chart : Chart} (hkeeps : (Rule.grow seed step).keeps b ofTerm = true)
    (hleft : ∀ p ∈ left, p.Keeps b none) (hchart : ChartKeeps b chart) :
    Kept b ((Rule.grow seed step).leaves b ofTerm)
      (g.read scan (fuel + 1) (.grow seed step) left pos chart) := by
  simp only [Rule.keeps, Bool.and_eq_true] at hkeeps
  rw [Grammar.read]
  have hseed := (hread seed left pos chart hkeeps.1 hleft hchart).mono
    (Kinds.within_both_left _ (step.leaves b ofTerm))
  revert hseed
  rcases g.read scan fuel seed left pos chart with ⟨_ | ⟨ps, next⟩, chart'⟩ <;> intro hseed
  · exact .none hseed.chart
  · exact hextend step ps next chart' _ hkeeps.2
      (Kinds.within_both_right (seed.leaves b ofTerm) _) (hseed.pieces ps next rfl) hseed.chart

/-- A rule that accepts nothing leaves nothing. -/
theorem kept_look (hread : g.ReadsWithin scan ofTerm b fuel) {r : Rule τ} {left : List Piece}
    {pos : Nat} {chart : Chart} (hkeeps : r.keeps b ofTerm = true)
    (hleft : ∀ p ∈ left, p.Keeps b none) (hchart : ChartKeeps b chart) (kinds : Kinds) :
    Kept b kinds (g.read scan (fuel + 1) (.ahead r) left pos chart) ∧
      Kept b kinds (g.read scan (fuel + 1) (.unless r) left pos chart) := by
  rw [Grammar.read, Grammar.read]
  have hfound := hread r left pos chart hkeeps hleft hchart
  revert hfound
  rcases g.read scan fuel r left pos chart with ⟨_ | ⟨ps, next⟩, chart'⟩ <;> intro hfound
  · exact ⟨.none hfound.chart, .some hfound.chart (by simp)⟩
  · exact ⟨.some hfound.chart (by simp), .none hfound.chart⟩

/-- What is read with more fuel keeps to a bound, if what is read with less does. -/
theorem readsWithin_succ (h : g.KeepsTo scan ofTerm b)
    (hread : g.ReadsWithin scan ofTerm b fuel) (hextend : g.ExtendsWithin scan ofTerm b fuel) :
    g.ReadsWithin scan ofTerm b (fuel + 1) := by
  intro rule left pos chart hkeeps hleft hchart
  cases rule with
  | empty => exact .some hchart (by simp)
  | term t =>
    rw [Grammar.read]
    cases hscan : scan t pos with
    | none => exact .none hchart
    | some found => exact .some hchart (by simpa [Rule.leaves] using h.terms t pos _ _ hscan)
  | ref name => exact kept_ref h hread hchart
  | seq x y => exact kept_seq hread hkeeps hleft hchart
  | alt x y => exact kept_alt hread hkeeps hleft hchart
  | star r => exact kept_star (r := r) hread hkeeps hleft hchart
  | ahead r => exact (kept_look (r := r) hread hkeeps hleft hchart _).1
  | «unless» r => exact (kept_look (r := r) hread hkeeps hleft hchart _).2
  | grow seed step => exact kept_grow hread hextend hkeeps hleft hchart
  | role name r =>
    rw [Grammar.read]
    exact (hread r left pos chart hkeeps hleft hchart).map fun ps hps => Piece.keeps_withRole hps
  | node kind r =>
    simp only [Rule.keeps, Bool.and_eq_true] at hkeeps
    rw [Grammar.read]
    exact (hread r left pos chart hkeeps.2 hleft hchart).map
      fun ps hps => Piece.keeps_wrap hps hkeeps.1
  | phrase text r =>
    simp only [Rule.keeps, Bool.and_eq_true] at hkeeps
    rw [Grammar.read]
    exact (hread r left pos chart hkeeps.2 hleft hchart).map
      fun ps hps => Piece.keeps_phrase hps hkeeps.1
  | wrap kind role r =>
    simp only [Rule.keeps, Bool.and_eq_true] at hkeeps
    have hnew := hread r [] pos chart hkeeps.2 (by simp) hchart
    have hwrapped : ∀ before, (∀ p ∈ before, p.Keeps b none) → ∀ ps,
        (∀ p ∈ ps, p.Keeps b (r.leaves b ofTerm)) →
        ∀ q ∈ Piece.wrap kind (before ++ ps), q.Keeps b (some [(kind, true)]) :=
      fun before hbefore ps hps => Piece.keeps_wrap
        (Piece.keeps_append hbefore fun p hp => (hps p hp).mono (Kinds.within_none _)) hkeeps.1
    cases role with
    | none =>
      rw [Grammar.read]
      exact hnew.map (hwrapped left hleft)
    | some name =>
      rw [Grammar.read]
      exact hnew.map (hwrapped _ (Piece.keeps_withRole hleft))

/-- **What is read keeps to what the rules say.** If every rule of a grammar keeps to a bound,
and every terminal, whatever a rule reads does. -/
theorem KeepsTo.read (h : g.KeepsTo scan ofTerm b) (fuel : Nat) :
    g.ReadsWithin scan ofTerm b fuel := by
  suffices hboth : g.ReadsWithin scan ofTerm b fuel ∧ g.ExtendsWithin scan ofTerm b fuel from
    hboth.1
  induction fuel with
  | zero =>
    refine ⟨fun rule left pos chart _ _ hchart => ?_,
      fun step left pos chart kinds _ _ _ hchart => ?_⟩
    · rw [Grammar.read]
      exact .none hchart
    · rw [Grammar.extend]
      exact .none hchart
  | succ fuel ih =>
    exact ⟨readsWithin_succ h ih.1 ih.2, extendsWithin_succ ih.1 ih.2⟩

/-! ## Tables of rules -/

/-- Whether every rule of a table keeps to a bound. -/
def allKeep (b : Bound) (ofTerm : τ → List (String × Bool)) (rules : List (String × Rule τ)) :
    Bool :=
  rules.all fun (name, r) => r.keeps b ofTerm && (r.leaves b ofTerm).within (b.exposed name)

theorem allKeep_append (xs ys : List (String × Rule τ)) :
    allKeep b ofTerm (xs ++ ys) = (allKeep b ofTerm xs && allKeep b ofTerm ys) :=
  List.all_append

theorem mem_or_getElem?_of_insertMany {rules : List (String × Rule τ)} {name : String}
    {r : Rule τ} (m : Std.HashMap String (Rule τ)) (h : (m.insertMany rules)[name]? = some r) :
    (name, r) ∈ rules ∨ m[name]? = some r := by
  induction rules generalizing m with
  | nil => exact Or.inr (by simpa using h)
  | cons first rest ih =>
    rw [Std.HashMap.insertMany_cons] at h
    rcases ih _ h with hrest | hfirst
    · exact Or.inl (List.mem_cons_of_mem first hrest)
    · rw [Std.HashMap.getElem?_insert] at hfirst
      split at hfirst
      case isTrue hsame =>
        refine Or.inl (List.mem_cons.mpr (Or.inl ?_))
        rw [← Option.some.inj hfirst, ← eq_of_beq hsame]
      case isFalse => exact Or.inr hfirst

/-- A rule of a grammar is one of the table that it was made from. -/
theorem mem_of_ofList {rules : List (String × Rule τ)} {name : String} {r : Rule τ}
    (h : (ofList rules).rules[name]? = some r) : (name, r) ∈ rules := by
  rw [ofList, Std.HashMap.ofList_eq_insertMany_empty] at h
  exact (mem_or_getElem?_of_insertMany ∅ h).resolve_right (by simp)

theorem keepsTo_ofList {rules : List (String × Rule τ)}
    (hterms : ∀ (t : τ) (pos : Nat) (p : Piece) (next : Nat), scan t pos = some (p, next) →
      p.Keeps b (some (ofTerm t)))
    (hrules : allKeep b ofTerm rules = true) : (ofList rules).KeepsTo scan ofTerm b := by
  refine ⟨hterms, fun name r hr => ?_⟩
  have hkeeps := List.all_eq_true.mp hrules _ (mem_of_ofList hr)
  simpa using hkeeps

end Grammar

end SourceFacts.Syntax
