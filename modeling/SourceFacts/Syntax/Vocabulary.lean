import SourceFacts.Syntax.Contents

/-!
# The words a grammar knows

The kinds of node that a grammar can make, the roles that it gives them, and the children that
each may have, read off its rules.
-/

namespace SourceFacts.Syntax

/-- The kinds and roles of a grammar, and the kinds that go together under one name. -/
structure Vocabulary where
  /-- Whether there are nodes of a kind, which the grammar may name or not. -/
  hasKind : (kind : String) → (named : Bool) → Bool
  /-- Whether nodes can play a role. -/
  hasRole : (role : String) → Bool
  /-- The children that nodes of a kind may have, if they may have any. -/
  parts? : (kind : String) → Option (List Part)
  /-- Kinds of node that no rule mentions, since they may stand anywhere. -/
  extras : List String
  families : List (String × List String)
deriving Inhabited

namespace Vocabulary

/-- The kinds that go together under a name. -/
def family? (v : Vocabulary) (name : String) : Option (List String) :=
  (v.families.find? (·.1 == name)).map (·.2)

end Vocabulary

namespace Rule

variable {τ : Type}

/-- The kinds of node that a rule makes, given those of terminals. -/
def kinds (ofTerm : τ → List (String × Bool)) : Rule τ → List (String × Bool)
  | .empty | .ref _ | .ahead _ | .unless _ => []
  | .term t => ofTerm t
  | .seq a b | .alt a b | .grow a b => a.kinds ofTerm ++ b.kinds ofTerm
  | .star r | .role _ r => r.kinds ofTerm
  | .node kind r | .wrap kind _ r => (kind, true) :: r.kinds ofTerm
  | .phrase text _ => [(text, false)]

/-- The roles that a rule gives. -/
def roles : Rule τ → List String
  | .seq a b | .alt a b | .grow a b => a.roles ++ b.roles
  | .star r | .node _ r | .phrase _ r => r.roles
  | .role name r => name :: r.roles
  | .wrap _ left r => left.toList ++ r.roles
  | .empty | .term _ | .ref _ | .ahead _ | .unless _ => []

end Rule

/-- The kind of what could not be understood, which may contain anything. -/
def errorKind : String := "ERROR"

/-- The vocabulary of a table of rules. -/
def Vocabulary.ofRules {τ : Type} (rules : List (String × Rule τ))
    (ofTerm : τ → List (String × Bool)) (extras : List String)
    (families : List (String × List String)) : Vocabulary :=
  let kinds : Std.HashSet (String × Bool) :=
    .ofList ((rules.flatMap fun (_, r) => r.kinds ofTerm) ++
      (errorKind :: extras).map fun k => (k, true))
  let roles : Std.HashSet String := .ofList (rules.flatMap fun (_, r) => r.roles)
  let contents := contentsOf ofTerm rules
  { hasKind := fun kind named => kinds.contains (kind, named)
    hasRole := roles.contains
    parts? := fun kind => contents[kind]?.map (·.toList)
    extras, families }

end SourceFacts.Syntax
