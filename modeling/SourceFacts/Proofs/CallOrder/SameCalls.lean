import SourceFacts.Proofs.CallOrder.Turns

/-!
# What an order depends on

Which order is in turn depends only on which function depends on which (`dependencyOrder?_congr`),
and this only on the names of the functions and, for each, the set of names by which it calls
others of the scope (`SameCalls.dependsOn`). How often and in which order calls are made, on
which lines, on what outside of the scope, to itself or to functions that are not there: none of
it shows.
-/

namespace SourceFacts.CallOrder

/-- The names by which a function calls other functions of the scope. -/
def calledNames (scope : Scope) (functions : List FunctionOutline) (f : FunctionOutline) :
    Set String :=
  {name | (∃ c ∈ f.calls, scope.resolves c = true ∧ c.name = name) ∧ name ≠ f.name ∧
    ∃ g ∈ functions, g.name = name}

/-- Two scopes list functions of the same names, which call the same names. -/
def SameCalls (scope : Scope) (fs gs : List FunctionOutline) : Prop :=
  List.Forall₂ (fun f g => f.name = g.name ∧ calledNames scope fs f = calledNames scope gs g)
    fs gs

variable {scope : Scope} {functions fs gs : List FunctionOutline}

/-! ## The same dependencies -/

theorem InTurn.congr {cs cs' : List (List Nat)} {order : List Nat}
    (hlength : cs.length = cs'.length)
    (h : ∀ i j, j ∈ cs.getD i [] ↔ j ∈ cs'.getD i []) (hturn : InTurn cs order) :
    InTurn cs' order := by
  have hreleased : ∀ i, releasedAt cs order i = releasedAt cs' order i := by
    intro i
    apply releasedAt_eq_of_places
    simp only [h, implies_true]
  refine ⟨hlength ▸ hturn.complete, ?_, ?_⟩
  · intro i hi
    rw [← hreleased]
    exact hturn.released i hi
  · apply hturn.sorted.imp
    intro i j hij
    unfold Precedes
    rwa [← hreleased, ← hreleased]

theorem dependencyOrder?_congr (hlength : fs.length = gs.length)
    (h : ∀ i j, DependsOn scope fs i j ↔ DependsOn scope gs i j) :
    dependencyOrder? scope fs = dependencyOrder? scope gs := by
  have hlengths : (callees scope fs).length = (callees scope gs).length := by
    rw [length_callees, length_callees, hlength]
  have hcallees : ∀ i j,
      j ∈ (callees scope fs).getD i [] ↔ j ∈ (callees scope gs).getD i [] := by
    intro i j
    rw [mem_callees_iff, mem_callees_iff, h]
  apply Option.ext
  intro order
  rw [dependencyOrder?_eq_some_iff, dependencyOrder?_eq_some_iff]
  exact ⟨InTurn.congr hlengths hcallees,
    InTurn.congr hlengths.symm fun i j => (hcallees i j).symm⟩

/-! ## The same names -/

theorem firstNamed_congr (h : fs.map (·.name) = gs.map (·.name)) {name : String} {j : Nat} :
    FirstNamed fs name j ↔ FirstNamed gs name j := by
  have hindex : ∀ functions : List FunctionOutline,
      indexOf? functions name = (functions.map (·.name)).findIdx? (· == name) := by
    intro functions
    rw [List.findIdx?_map]
    rfl
  rw [← indexOf?_eq_some_iff, ← indexOf?_eq_some_iff, hindex, hindex, h]

theorem dependsOn_iff_calledNames {i j : Nat} :
    DependsOn scope functions i j ↔ ∃ f name, functions[i]? = some f ∧
      name ∈ calledNames scope functions f ∧ FirstNamed functions name j := by
  constructor
  · rintro ⟨f, c, hf, hc, hresolves, hother, hfirst⟩
    obtain ⟨g, hg, hname⟩ := hfirst.1
    have hthere : ∃ g ∈ functions, g.name = c.name := ⟨g, List.mem_of_getElem? hg, hname⟩
    exact ⟨f, c.name, hf, ⟨⟨c, hc, hresolves, rfl⟩, hother, hthere⟩, hfirst⟩
  · rintro ⟨f, name, hf, ⟨⟨c, hc, hresolves, rfl⟩, hother, -⟩, hfirst⟩
    exact ⟨f, c, hf, hc, hresolves, hother, hfirst⟩

namespace SameCalls

theorem names_eq (h : SameCalls scope fs gs) : fs.map (·.name) = gs.map (·.name) := by
  obtain ⟨hlength, heach⟩ := List.forall₂_iff_get.mp h
  apply List.ext_getElem
  · simpa using hlength
  · intro i hf hg
    rw [List.getElem_map, List.getElem_map]
    exact (heach i (by simpa using hf) (by simpa using hg)).1

theorem symm (h : SameCalls scope fs gs) : SameCalls scope gs fs := by
  apply h.flip.imp
  intro g f hfg
  exact ⟨hfg.1.symm, hfg.2.symm⟩

theorem dependsOn (h : SameCalls scope fs gs) {i j : Nat} (hd : DependsOn scope fs i j) :
    DependsOn scope gs i j := by
  rw [dependsOn_iff_calledNames] at hd ⊢
  obtain ⟨f, name, hf, hname, hfirst⟩ := hd
  obtain ⟨hi, rfl⟩ := List.getElem?_eq_some_iff.mp hf
  have hi' : i < gs.length := h.length_eq ▸ hi
  have hcalled : calledNames scope fs fs[i] = calledNames scope gs gs[i] := (h.get hi hi').2
  exact ⟨gs[i], name, List.getElem?_eq_getElem hi', hcalled ▸ hname,
    (firstNamed_congr h.names_eq).mp hfirst⟩

end SameCalls

/-- **Only the sets of names called matter.** Functions of the same names, each calling the same
names of the scope, have the same order, or neither have one. -/
theorem dependencyOrder?_eq_of_sameCalls (h : SameCalls scope fs gs) :
    dependencyOrder? scope fs = dependencyOrder? scope gs :=
  dependencyOrder?_congr h.length_eq fun _ _ => ⟨h.dependsOn, h.symm.dependsOn⟩

/-- Calls the other way round, made twice, on other lines, on something else, by the own name and
by a name that nobody bears. -/
theorem dependencyOrder?_eq_of_sameCalls_noise :
    let fs : List FunctionOutline := [
      .named "save" [⟨some "self", "check", 3⟩, ⟨none, "load", 4⟩],
      .named "check" [⟨some "cls", "load", 8⟩], .named "load" []]
    let gs : List FunctionOutline := [
      .named "save" [⟨none, "load", 1⟩, ⟨some "cls", "check", 1⟩, ⟨some "self", "load", 2⟩,
        ⟨none, "save", 7⟩],
      .named "check" [⟨some "self", "load", 5⟩, ⟨some "db", "save", 6⟩],
      .named "load" [⟨none, "open", 9⟩, ⟨some "db", "check", 9⟩]]
    SameCalls .methods fs gs ∧ dependencyOrder? .methods fs = dependencyOrder? .methods gs := by
  intro fs gs
  have hsame : SameCalls .methods fs gs := by
    refine .cons ⟨rfl, ?save⟩ (.cons ⟨rfl, ?check⟩ (.cons ⟨rfl, ?load⟩ .nil))
    case save =>
      ext name
      simp [calledNames, fs, gs, FunctionOutline.named, Scope.resolves]
      grind
    case check =>
      ext name
      simp [calledNames, fs, gs, FunctionOutline.named, Scope.resolves]
    case load =>
      ext name
      simp [calledNames, fs, gs, FunctionOutline.named, Scope.resolves]
      grind
  exact ⟨hsame, dependencyOrder?_eq_of_sameCalls hsame⟩

end SourceFacts.CallOrder
