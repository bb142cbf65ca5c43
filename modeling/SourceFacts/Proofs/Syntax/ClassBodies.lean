import SourceFacts.Proofs.Syntax.Terminals
import SourceFacts.Syntax.Languages

/-!
# Class bodies

The named nodes in a class body are decorators, comments and members, and members are of few
kinds (`IsClassBody`). Both dialects of TypeScript make no others, whatever the source
(`Language.isClassBody_of_parse`).
-/

namespace SourceFacts.Syntax.TypeScript

/-- Whether a node may stand anywhere, apart from what is around it. -/
def isComment (n : Node) : Bool := extras.contains n.kind

theorem isComment_iff {n : Node} :
    isComment n = true ↔ n.kind = "comment" ∨ n.kind = "html_comment" := by
  simp [isComment, extras]

/-- The kinds of methods, with and without a body. -/
def methodKinds : List String :=
  ["method_definition", "method_signature", "abstract_method_signature"]

/-- The kinds of members. What is not understood counts as a member. -/
def memberKinds : List String :=
  methodKinds ++
    ["public_field_definition", "index_signature", "class_static_block", errorKind]

/-- A class body, with nothing but decorators, comments and members. -/
structure IsClassBody (n : Node) : Prop where
  kind : n.kind = "class_body"
  children : ∀ c ∈ n.children, c.named →
    c.kind = "decorator" ∨ isComment c ∨ c.kind ∈ memberKinds

/-- What the rules leave that a class body is made of, and what may stand in one. -/
def classBound : Bound where
  exposed
    | "member" => some parts
    | "static_block" => some [("class_static_block", true)]
    | "abstract_method" => some [("abstract_method_signature", true)]
    | "index_signature" => some [("index_signature", true)]
    | "method" => some [("method_definition", true)]
    | "method_signature" => some [("method_signature", true)]
    | "field" => some [("public_field_definition", true)]
    | "field_end" => some [(";", false)]
    | "decorator" => some [("decorator", true)]
    | _ => none
  children kind := if kind = "class_body" then some parts else none
  extras := extras
where
  parts : List (String × Bool) :=
    (("decorator" :: memberKinds).map (·, true)) ++
      ["\x7b", "\x7d", ";", ","].map (·, false)

theorem grammar_keepsTo_classBound (dialect : Dialect) (t : SourceText) :
    (grammar dialect).KeepsTo (scanner t) Terminal.kinds classBound := by
  refine Grammar.keepsTo_ofList (keeps_scanner (by decide) (by decide) (by decide)) ?_
  simp only [Grammar.allKeep_append, Bool.and_eq_true, and_assoc]
  refine ⟨by decide +kernel, by decide +kernel, by decide +kernel, by decide +kernel, ?_,
    by decide +kernel, by decide +kernel⟩
  -- Only in expressions the dialects differ.
  cases dialect <;> decide +kernel

/-- Every node that is read has the children that the rules say. -/
theorem everywhere_parse (dialect : Dialect) (t : SourceText) :
    (parse dialect t).1.Everywhere classBound.Allows := by
  have hread : ∀ (fuel : Nat) (name : String) (ps : List Piece) (next : Nat),
      ((grammar dialect).read (scanner t) fuel (.ref name) [] 0 {}).1 = some (ps, next) →
        ∀ n ∈ Piece.nodes ps, n.Everywhere classBound.Allows := by
    intro fuel name ps next h n hn
    have hkept := (grammar_keepsTo_classBound dialect t).read fuel (.ref name) [] 0 {} rfl
      (by simp) (chartKeeps_empty classBound)
    exact (Piece.keeps_nodes (hkept.pieces ps next h) n hn).2
  refine ⟨fun c _ => Or.inr nofun, ?_⟩
  simp only [parse]
  split
  case h_1 ps next hprogram => exact hread _ _ ps next hprogram
  case h_2 =>
    cases hstatements : ((grammar dialect).read (scanner t) (400 * (t.size + 8))
        (.ref "statements") [] 0 {}).1 with
    | none => simp [Piece.nodes]
    | some found => exact hread _ _ found.1 found.2 hstatements

theorem isClassBody_of_mem_places (dialect : Dialect) (t : SourceText) {p : Place}
    (hp : p ∈ (parse dialect t).1.places) (hkind : p.node.kind = "class_body") :
    IsClassBody p.node := by
  have hallows : classBound.Allows p.node := (everywhere_parse dialect t).of_mem_places hp
  refine ⟨hkind, fun c hc hnamed => ?_⟩
  rcases hallows c hc with hextra | hpart
  · exact Or.inr (Or.inl (List.contains_iff_mem.mpr hextra))
  · have hmem : (c.kind, c.named) ∈ classBound.parts := hpart _ (by rw [hkind]; rfl)
    have hmember : c.kind = "decorator" ∨ c.kind ∈ memberKinds := by
      simpa [classBound.parts, hnamed] using hmem
    exact hmember.imp_right Or.inr

end SourceFacts.Syntax.TypeScript

namespace SourceFacts

open Syntax

/-- **Class bodies.** In the tree of every source, whatever of it was understood, what is called a
class body is one. -/
theorem Language.isClassBody_of_parse (l : Language) (hl : l.family = .typescript)
    {source : SourceText} {p : Place} (hp : p ∈ (l.parse source).1.places)
    (hkind : p.node.kind = "class_body") : TypeScript.IsClassBody p.node := by
  cases l with
  | python => cases hl
  | typescript => exact TypeScript.isClassBody_of_mem_places .plain source hp hkind
  | tsx => exact TypeScript.isClassBody_of_mem_places .tags source hp hkind

end SourceFacts
