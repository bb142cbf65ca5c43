import SourceFacts.Proofs.Syntax.Reading
import SourceFacts.Syntax.TypeScript.Vocabulary

/-!
# What TypeScript terminals bring

Whatever terminal is read, it brings a node of one of its kinds (`Terminal.kinds`), with comments
before it (`keeps_scanner`). Only strings and regular expressions have something in them.
-/

namespace SourceFacts.Syntax.TypeScript

variable {b : Bound} {t : SourceText} {n : Node} {kind : String} {named : Bool} {i j : Nat}

/-! ## Comments -/

/-- A node that may stand anywhere is a comment without anything in it. -/
def IsLead (n : Node) : Prop := n.kind = "comment" ∧ n.children = []

theorem isLead_cons {ns : List Node} (hns : ∀ n ∈ ns, IsLead n) :
    ∀ n ∈ t.leaf "comment" true i j :: ns, IsLead n := by
  intro n hn
  rcases List.mem_cons.mp hn with rfl | hn
  · exact ⟨rfl, rfl⟩
  · exact hns n hn

theorem isLead_skipExtras (fuel i : Nat) {acc : List Node} (hacc : ∀ n ∈ acc, IsLead n) :
    ∀ n ∈ (skipExtras t fuel i acc).1, IsLead n := by
  induction fuel generalizing i acc with
  | zero => simpa [skipExtras] using hacc
  | succ fuel ih =>
    rw [skipExtras]
    split
    · exact ih _ (isLead_cons hacc)
    · simpa using hacc

theorem isLead_lineEnd? {afterType : Bool} (fuel i : Nat) {acc : List Node}
    (hacc : ∀ n ∈ acc, IsLead n) {lead : List Node} {stop : Nat}
    (h : lineEnd? t afterType fuel i acc = some (lead, stop)) : ∀ n ∈ lead, IsLead n := by
  induction fuel generalizing i acc with
  | zero => simp [lineEnd?] at h
  | succ fuel ih =>
    rw [lineEnd?] at h
    split at h
    · cases h
      simpa using hacc
    · simp only at h
      split at h
      · exact ih _ (isLead_cons hacc) h
      · cases h

/-! ## Strings and regular expressions -/

theorem childless_cons {ns : List Node} (hns : ∀ n ∈ ns, n.children = []) :
    ∀ n ∈ t.leaf kind named i j :: ns, n.children = [] := by
  intro n hn
  rcases List.mem_cons.mp hn with rfl | hn
  · rfl
  · exact hns n hn

theorem childless_stringParts {quote : Char} (fuel i : Nat) {acc : List Node}
    (hacc : ∀ n ∈ acc, n.children = []) :
    ∀ n ∈ (stringParts t quote fuel i acc).1, n.children = [] := by
  induction fuel generalizing i acc with
  | zero => simpa [stringParts] using hacc
  | succ fuel ih =>
    rw [stringParts]
    split
    · simpa using hacc
    · split
      · simpa using hacc
      · split
        · exact ih _ (childless_cons hacc)
        · exact ih _ (childless_cons hacc)

/-- The marks and parts of a string have nothing in them. -/
theorem stringAt?_spec (h : stringAt? t i = some n) :
    n.kind = "string" ∧ n.named = true ∧ ∀ c ∈ n.children, c.children = [] := by
  unfold stringAt? at h
  split at h
  case h_1 quote _ =>
    split at h
    · have hparts : ∀ c ∈ (stringParts t quote (t.size + 1) (i + 1) []).1, c.children = [] :=
        childless_stringParts _ _ (by simp)
      cases h
      refine ⟨rfl, rfl, ?_⟩
      simp only [List.cons_append, List.forall_mem_cons, List.forall_mem_append]
      exact ⟨rfl, hparts, rfl, by simp⟩
    · cases h
  case h_2 => cases h

theorem regexAt?_spec (h : regexAt? t i = some n) :
    n.kind = "regex" ∧ n.named = true ∧ ∀ c ∈ n.children, c.children = [] := by
  unfold regexAt? at h
  split at h
  · split at h
    · cases h
    · cases h
      refine ⟨rfl, rfl, ?_⟩
      simp only [List.cons_append, List.nil_append, List.forall_mem_cons]
      refine ⟨rfl, rfl, rfl, fun c hc => ?_⟩
      split at hc
      · obtain rfl := List.mem_singleton.mp hc
        rfl
      · cases hc
  · cases h

/-! ## Pieces -/

/-- A node of a kind of which nothing is said, with nothing below its children. -/
theorem everywhere_of_shallow (hfree : b.children n.kind = none)
    (hshallow : ∀ c ∈ n.children, c.children = []) : n.Everywhere b.Allows := by
  refine ⟨fun c _ => Or.inr ?_, fun c hc => Bound.everywhere_of_childless (hshallow c hc)⟩
  rw [hfree]
  exact nofun

theorem keeps_lead (hb : "comment" ∈ b.extras) {lead : List Node}
    (hlead : ∀ n ∈ lead, IsLead n) :
    ∀ n ∈ lead, n.kind ∈ b.extras ∧ n.Everywhere b.Allows := by
  intro n hn
  obtain ⟨hkind, hchildren⟩ := hlead n hn
  exact ⟨hkind ▸ hb, Bound.everywhere_of_childless hchildren⟩

theorem keeps_ofNode (hb : "comment" ∈ b.extras) {lead : List Node}
    (hlead : ∀ n ∈ lead, IsLead n) (hkind : n.kind = kind) (hnamed : n.named = named)
    (hn : n.Everywhere b.Allows) : (Piece.ofNode lead n).Keeps b (some [(kind, named)]) := by
  refine ⟨keeps_lead hb hlead, fun m hm => ?_⟩
  cases hm
  exact ⟨by rintro ks ⟨⟩; simp [hkind, hnamed], hn⟩

theorem keeps_unseen (hb : "comment" ∈ b.extras) {lead : List Node} {span : Span}
    (hlead : ∀ n ∈ lead, IsLead n) : (⟨lead, none, span⟩ : Piece).Keeps b (some []) :=
  ⟨keeps_lead hb hlead, nofun⟩

/-- A terminal brings a node of one of its kinds, after comments. -/
theorem keeps_scanner (hb : "comment" ∈ b.extras) (hstring : b.children "string" = none)
    (hregex : b.children "regex" = none) (terminal : Terminal) (pos : Nat) (p : Piece)
    (next : Nat) (h : scanner t terminal pos = some (p, next)) :
    p.Keeps b (some terminal.kinds) := by
  have hskip : ∀ n ∈ (skipExtras t (t.size + 1) pos []).1, IsLead n :=
    isLead_skipExtras _ _ (by simp)
  have hnone : ∀ n ∈ ([] : List Node), IsLead n := by simp
  cases terminal with
  | mark | raw | word | name | anyName | privateName | number | templateOpen | dashedName =>
    simp only [scanner] at h
    repeat' split at h
    all_goals cases h
    all_goals exact keeps_ofNode hb hskip rfl rfl (Bound.everywhere_of_childless rfl)
  | hashBang | templateText | templateEscape | templateHole | templateClose | tagText
  | characterReference =>
    simp only [scanner] at h
    repeat' split at h
    all_goals cases h
    all_goals exact keeps_ofNode hb hnone rfl rfl (Bound.everywhere_of_childless rfl)
  | string =>
    obtain ⟨n, hn, hfound⟩ := Option.bind_eq_some_iff.mp h
    obtain ⟨hkind, hnamed, hshallow⟩ := stringAt?_spec hn
    cases hfound
    exact keeps_ofNode hb hskip hkind hnamed (everywhere_of_shallow (hkind ▸ hstring) hshallow)
  | regex =>
    obtain ⟨n, hn, hfound⟩ := Option.bind_eq_some_iff.mp h
    obtain ⟨hkind, hnamed, hshallow⟩ := regexAt?_spec hn
    cases hfound
    exact keeps_ofNode hb hskip hkind hnamed (everywhere_of_shallow (hkind ▸ hregex) hshallow)
  | attributeString =>
    simp only [scanner] at h
    repeat' split at h
    all_goals cases h
    all_goals refine keeps_ofNode hb hskip rfl rfl (everywhere_of_shallow hstring ?_)
    all_goals simp [SourceText.leaf]
  | lineEnd afterType =>
    simp only [scanner] at h
    split at h
    case h_1 lead stop hend =>
      cases h
      exact keeps_unseen hb (isLead_lineEnd? _ _ (by simp) hend)
    case h_2 => cases h
  | sameLine =>
    simp only [scanner] at h
    split at h
    · cases h
    · cases h
      exact keeps_unseen hb hnone
  | finish =>
    simp only [scanner] at h
    split at h
    · cases h
      exact keeps_unseen hb hskip
    · cases h

end SourceFacts.Syntax.TypeScript
