import Mathlib.Data.List.Forall2
import Mathlib.Data.Option.Basic
import SourceFacts.Proofs.Outline.Completeness
import SourceFacts.Proofs.Query.Captures

/-!
# Where the entries of an outline come from

Whatever a query captures and whatever the shape of the tree, each entry of an outline comes from
a definition that the query has reported (`Outline.ofPython_comesFrom`). The reported classes that
no function encloses most closely have entries, in the order in which they are reported, and so
have the reported functions that nothing encloses. The methods of a class are the reported
functions that it encloses most closely; a way tells the class, since all that is captured stands
in one tree (`Outline.enclosureOf_of_mem_outlinedMethods`).

What a match can contribute is said once (`Outline.Contributes`), and each list of an outline is
read off from it.
-/

namespace SourceFacts.Outline

open Syntax (Node Place SourceText)

variable {q : Query} {t : SourceText} {root : Node} {m : Query.Match} {p c : Place}

/-! ## Reported definitions -/

/-- The class that a match tells of. -/
def classAt? (q : Query) (m : Query.Match) : Option Place :=
  match m.place? (q.captureIndex? "class.def"), m.place? (q.captureIndex? "class.name") with
  | some p, some _ => some p
  | _, _ => none

/-- The function that a match tells of, if it tells of no class. -/
def functionAt? (q : Query) (m : Query.Match) : Option Place :=
  match classAt? q m, m.place? (q.captureIndex? "fn.def"), m.place? (q.captureIndex? "fn.name") with
  | none, some p, some _ => some p
  | _, _, _ => none

/-- The classes that a query reports. -/
def reportedClasses (q : Query) (t : SourceText) (root : Node) : List Place :=
  (q.matchesOf t root).filterMap (classAt? q)

/-- The functions that a query reports. -/
def reportedFunctions (q : Query) (t : SourceText) (root : Node) : List Place :=
  (q.matchesOf t root).filterMap (functionAt? q)

namespace Enclosure

/-- Whether nothing encloses a definition. -/
def isModule : Enclosure → Bool
  | .module => true
  | _ => false

/-- Whether a function encloses a definition most closely. -/
def isFunction : Enclosure → Bool
  | .function => true
  | _ => false

/-- Whether the class at a way encloses a definition most closely. -/
def isTypeAt (way : List Nat) : Enclosure → Bool
  | .type c => c.way == way
  | _ => false

theorem isModule_iff {e : Enclosure} : e.isModule = true ↔ e = .module := by
  cases e <;> simp [isModule]

theorem isTypeAt_iff {e : Enclosure} {way : List Nat} :
    e.isTypeAt way = true ↔ ∃ c, e = .type c ∧ c.way = way := by
  cases e <;> simp [isTypeAt]

end Enclosure

/-- The reported classes that have entries. -/
def outlinedClasses (q : Query) (t : SourceText) (root : Node) : List Place :=
  (reportedClasses q t root).filter fun p => !(enclosureOf p.above).isFunction

/-- The reported functions that have entries of their own. -/
def outlinedFunctions (q : Query) (t : SourceText) (root : Node) : List Place :=
  (reportedFunctions q t root).filter fun p => (enclosureOf p.above).isModule

/-- The reported functions that have entries among the methods of a class. -/
def outlinedMethods (q : Query) (t : SourceText) (root : Node) (c : Place) : List Place :=
  (reportedFunctions q t root).filter fun p => (enclosureOf p.above).isTypeAt c.way

/-! ## Entries -/

/-- An entry is that of a class at a place, whatever its name, its base classes and its methods
are. -/
def ClassFrom (t : SourceText) (e : ClassOutline) (p : Place) : Prop :=
  ∃ name bases, { e with methods := [] } = classOf t p name bases

/-- An entry is that of a function at a place, whatever its names are. -/
def FunctionFrom (t : SourceText) (e : FunctionOutline) (p : Place) : Prop :=
  ∃ name, { e with qualifiedName := e.name, parentClass := none } = functionOf t p name

/-- The entries of an outline are those of certain places, in their order. -/
structure ComesFrom (t : SourceText) (o : Outline) (classes functions : List Place)
    (methods : Place → List Place) : Prop where
  classes : List.Forall₂
    (fun e c => ClassFrom t e c ∧ List.Forall₂ (FunctionFrom t) e.methods (methods c))
    o.classes classes
  functions : List.Forall₂ (FunctionFrom t) o.functions functions

/-! ## What a match contributes -/

theorem classAt?_eq_some : classAt? q m = some p ↔
    m.place? (q.captureIndex? "class.def") = some p ∧
      ∃ name, m.place? (q.captureIndex? "class.name") = some name := by
  unfold classAt?
  cases m.place? (q.captureIndex? "class.def") <;>
    cases m.place? (q.captureIndex? "class.name") <;> simp

theorem functionAt?_eq_some : functionAt? q m = some p ↔
    classAt? q m = none ∧ m.place? (q.captureIndex? "fn.def") = some p ∧
      ∃ name, m.place? (q.captureIndex? "fn.name") = some name := by
  unfold functionAt?
  cases classAt? q m <;> cases m.place? (q.captureIndex? "fn.def") <;>
    cases m.place? (q.captureIndex? "fn.name") <;> simp

theorem functionAt?_of_class (h : classAt? q m = some p) : functionAt? q m = none := by
  unfold functionAt?
  rw [h]

/-- What a match contributes: an item for the class or the function that it tells of, unless a
function encloses this most closely. -/
inductive Contributes (t : SourceText) (q : Query) (m : Query.Match) : Option Item → Prop
  | type (p : Place) (name : String) (bases : Option Place) (hclass : classAt? q m = some p) :
      Contributes t q m (if (enclosureOf p.above).isFunction then none
        else some (.type p.way (classOf t p name bases)))
  | function (p : Place) (name : String) (hclass : classAt? q m = none)
      (hfunction : functionAt? q m = some p) :
      Contributes t q m (match enclosureOf p.above with
        | .module => some (.function (functionOf t p name))
        | .function => none
        | .type c => some (.method c.way { functionOf t p name with
            qualifiedName := nameOf t c.node ++ "." ++ name
            parentClass := some (nameOf t c.node) }))
  | nothing (hclass : classAt? q m = none) (hfunction : functionAt? q m = none) :
      Contributes t q m none

theorem contributes_itemOf (t : SourceText) (q : Query) (m : Query.Match) :
    Contributes t q m (itemOf t q m) := by
  cases hclass : classAt? q m with
  | some p =>
    obtain ⟨hdef, name, hname⟩ := classAt?_eq_some.mp hclass
    convert Contributes.type p (t.textOf name.node) (m.place? (q.captureIndex? "class.bases"))
      hclass using 1
    simp only [itemOf, hdef, hname]
    cases enclosureOf p.above <;> simp [Enclosure.isFunction]
  | none =>
    -- The class or its name has not been captured, so the function counts.
    have hitem : itemOf t q m =
        match m.place? (q.captureIndex? "fn.def"), m.place? (q.captureIndex? "fn.name") with
        | some p, some name =>
          match enclosureOf p.above with
          | .module => some (.function (functionOf t p (t.textOf name.node)))
          | .function => none
          | .type c => some (.method c.way { functionOf t p (t.textOf name.node) with
              qualifiedName := nameOf t c.node ++ "." ++ t.textOf name.node
              parentClass := some (nameOf t c.node) })
        | _, _ => none := by
      cases hdef : m.place? (q.captureIndex? "class.def") with
      | none =>
        simp only [itemOf, hdef]
        rfl
      | some d =>
        cases hname : m.place? (q.captureIndex? "class.name") with
        | none =>
          simp only [itemOf, hdef, hname]
          rfl
        | some name => simp [classAt?, hdef, hname] at hclass
    cases hfunction : functionAt? q m with
    | some p =>
      obtain ⟨-, hdef, name, hname⟩ := functionAt?_eq_some.mp hfunction
      rw [hitem, hdef, hname]
      exact .function p (t.textOf name.node) hclass hfunction
    | none =>
      convert Contributes.nothing hclass hfunction using 1
      unfold functionAt? at hfunction
      rw [hitem]
      cases hdef : m.place? (q.captureIndex? "fn.def") with
      | none => rfl
      | some p =>
        cases hname : m.place? (q.captureIndex? "fn.name") with
        | none => rfl
        | some name => simp [hclass, hdef, hname] at hfunction

/-! ## The lists of an outline -/

namespace Contributes

variable {item : Option Item}

theorem rel_class (methods : List Nat → List FunctionOutline) (h : Contributes t q m item) :
    Option.Rel (fun e p => ClassFrom t e p ∧ e.methods = methods p.way)
      (item.bind fun
        | .type way c => some { c with methods := methods way }
        | _ => none)
      ((classAt? q m).filter fun p => !(enclosureOf p.above).isFunction) := by
  cases h with
  | type p name bases hclass =>
    rw [hclass, Option.filter_some]
    cases hlocal : (enclosureOf p.above).isFunction with
    | true => exact .none
    | false => exact .some ⟨⟨name, bases, rfl⟩, rfl⟩
  | function p name hclass hfunction =>
    rw [hclass]
    cases enclosureOf p.above <;> exact .none
  | nothing hclass hfunction =>
    rw [hclass]
    exact .none

theorem rel_function (h : Contributes t q m item) :
    Option.Rel (FunctionFrom t)
      (item.bind fun
        | .function f => some f
        | _ => none)
      ((functionAt? q m).filter fun p => (enclosureOf p.above).isModule) := by
  cases h with
  | type p name bases hclass =>
    rw [functionAt?_of_class hclass]
    cases (enclosureOf p.above).isFunction <;> exact .none
  | function p name hclass hfunction =>
    rw [hfunction, Option.filter_some]
    cases enclosureOf p.above with
    | module => exact .some ⟨name, rfl⟩
    | function => exact .none
    | type c => exact .none
  | nothing hclass hfunction =>
    rw [hfunction]
    exact .none

theorem rel_method (way : List Nat) (h : Contributes t q m item) :
    Option.Rel (FunctionFrom t)
      (item.bind fun
        | .method w f => if w == way then some f else none
        | _ => none)
      ((functionAt? q m).filter fun p => (enclosureOf p.above).isTypeAt way) := by
  cases h with
  | type p name bases hclass =>
    rw [functionAt?_of_class hclass]
    cases (enclosureOf p.above).isFunction <;> exact .none
  | function p name hclass hfunction =>
    rw [hfunction, Option.filter_some]
    cases enclosureOf p.above with
    | module => exact .none
    | function => exact .none
    | type c =>
      change Option.Rel _ (if c.way == way then some _ else none)
        (if c.way == way then some p else none)
      split
      · exact .some ⟨name, rfl⟩
      · exact .none
  | nothing hclass hfunction =>
    rw [hfunction]
    exact .none

end Contributes

/-- What is chosen from the matches in two ways goes in parallel, if it does for each match. -/
theorem forall₂_of_contributes {β γ : Type} {R : β → γ → Prop} {f : Item → Option β}
    {g : Query.Match → Option γ} {P : γ → Bool} (ms : List Query.Match)
    (h : ∀ m item, Contributes t q m item → Option.Rel R (item.bind f) ((g m).filter P)) :
    List.Forall₂ R ((ms.filterMap (itemOf t q)).filterMap f) ((ms.filterMap g).filter P) := by
  rw [List.filterMap_filterMap, List.filter_filterMap]
  refine List.rel_filterMap (R := Eq) ?_ (List.forall₂_refl ms)
  rintro m _ rfl
  exact h m _ (contributes_itemOf t q m)

/-- Each entry of an outline comes from a reported definition. -/
theorem ofPython_comesFrom (q : Query) (t : SourceText) (root : Node) :
    ComesFrom t (ofPython q t root) (outlinedClasses q t root) (outlinedFunctions q t root)
      (outlinedMethods q t root) where
  classes := by
    refine (forall₂_of_contributes _ fun m item h => h.rel_class _).imp ?_
    rintro e c ⟨hentry, hmethods⟩
    rw [hmethods]
    exact ⟨hentry, forall₂_of_contributes _ fun m item h => h.rel_method c.way⟩
  functions := forall₂_of_contributes _ fun m item h => h.rel_function

/-! ## Places -/

theorem mem_places_of_reportedClasses (hp : p ∈ reportedClasses q t root) : p ∈ root.places := by
  obtain ⟨m, hm, hclass⟩ := List.mem_filterMap.mp hp
  exact Query.mem_places_of_place? hm (classAt?_eq_some.mp hclass).1

theorem mem_places_of_reportedFunctions (hp : p ∈ reportedFunctions q t root) :
    p ∈ root.places := by
  obtain ⟨m, hm, hfunction⟩ := List.mem_filterMap.mp hp
  exact Query.mem_places_of_place? hm (functionAt?_eq_some.mp hfunction).2.1

/-- The methods of a class are the functions that it encloses most closely. -/
theorem enclosureOf_of_mem_outlinedMethods (hc : c ∈ root.places)
    (hp : p ∈ outlinedMethods q t root c) : enclosureOf p.above = .type c := by
  obtain ⟨hreported, htype⟩ := List.mem_filter.mp hp
  obtain ⟨d, hd, hway⟩ := Enclosure.isTypeAt_iff.mp htype
  have hplace : d ∈ root.places :=
    mem_places_of_enclosureOf (mem_places_of_reportedFunctions hreported) hd
  rw [hd, Node.eq_of_way_eq hplace hc hway]

end SourceFacts.Outline
