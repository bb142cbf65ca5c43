import SourceFacts.Proofs.CallOrder.Turns

/-!
# Functions in call order

Taking functions out of their slots in an order without repetitions finds every slot full, so that
all functions are there (`isTakenBy_sort`, `IsTakenBy.perm`).

Functions of different names that are taken in an order in turn are in turn as they then stand
(`inTurn_taken`): each dependency is one between the new places (`dependsOn_taken`), and each
function is released when as many are placed as before. So a second sorting moves nothing.
-/

namespace SourceFacts.CallOrder

/-- Functions as an order takes them. -/
def IsTakenBy (order : List Nat) (functions taken : List FunctionOutline) : Prop :=
  taken.map some = order.map fun i => functions[i]?

variable {scope : Scope} {functions taken : List FunctionOutline} {order : List Nat}

/-! ## Taking functions out of their slots -/

/-- In an order without repetitions every slot is still full when it is turned to. -/
theorem map_some_takeAll {slots : List (Option FunctionOutline)} (hn : order.Nodup)
    (hfull : ∀ i ∈ order, ∃ f, slots.getD i none = some f) :
    (takeAll slots order).map some = order.map fun i => slots.getD i none := by
  induction order generalizing slots with
  | nil => rfl
  | cons i rest ih =>
    obtain ⟨hi, hrest⟩ := List.nodup_cons.mp hn
    obtain ⟨f, hf⟩ := hfull i List.mem_cons_self
    -- emptying one slot leaves alone those that the rest of the order turns to
    have hkept : ∀ j ∈ rest, (slots.set i none).getD j none = slots.getD j none := by
      intro j hj
      have hij : i ≠ j := fun heq => hi (heq ▸ hj)
      rw [List.getD_eq_getElem?_getD, List.getD_eq_getElem?_getD, List.getElem?_set_ne hij]
    have hfull' : ∀ j ∈ rest, ∃ f, (slots.set i none).getD j none = some f := by
      intro j hj
      rw [hkept j hj]
      exact hfull j (List.mem_cons_of_mem i hj)
    rw [takeAll, hf]
    simp only [List.map_cons]
    rw [hf, ih hrest hfull', List.map_congr_left hkept]

/-- Sorted functions are those of the scope as the order found takes them. -/
theorem isTakenBy_sort (h : dependencyOrder? scope functions = some order) :
    IsTakenBy order functions (sort scope functions) := by
  obtain ⟨hperm, -⟩ := dependencyOrder?_isOrder h
  have hslot : ∀ i, (functions.map some).getD i none = functions[i]? := by
    intro i
    rw [List.getD_eq_getElem?_getD, List.getElem?_map]
    cases functions[i]? <;> rfl
  have hfull : ∀ i ∈ order, ∃ f, (functions.map some).getD i none = some f := by
    intro i hi
    have hlt := List.mem_range.mp (hperm.mem_iff.mp hi)
    exact ⟨functions[i], by rw [hslot, List.getElem?_eq_getElem hlt]⟩
  have htaken := map_some_takeAll (hperm.nodup_iff.mpr List.nodup_range) hfull
  simp only [hslot] at htaken
  rwa [IsTakenBy, sort, h]

theorem sort_of_eq_none (h : dependencyOrder? scope functions = none) :
    sort scope functions = functions := by
  rw [sort, h]

namespace IsTakenBy

theorem length_eq (h : IsTakenBy order functions taken) : taken.length = order.length := by
  simpa using congrArg List.length h

theorem getElem?_eq (h : IsTakenBy order functions taken) {i k : Nat} (hk : order[k]? = some i) :
    taken[k]? = functions[i]? := by
  have hplace := congrArg (fun l => l[k]?) h
  simp only [List.getElem?_map, hk, Option.map_some] at hplace
  obtain ⟨f, hf, heq⟩ := Option.map_eq_some_iff.mp hplace
  rw [hf, heq]

theorem perm (h : IsTakenBy order functions taken)
    (hperm : order.Perm (List.range functions.length)) : taken.Perm functions := by
  have hall : functions.map some = (List.range functions.length).map fun i => functions[i]? := by
    apply List.ext_getElem
    · simp
    · intro i hi hi'
      simp
  rw [← List.map_perm_map_iff (Option.some_injective FunctionOutline), h, hall]
  exact hperm.map _

end IsTakenBy

theorem sort_perm (scope : Scope) (functions : List FunctionOutline) :
    (sort scope functions).Perm functions := by
  cases h : dependencyOrder? scope functions with
  | none => rw [sort_of_eq_none h]
  | some order => exact (isTakenBy_sort h).perm (dependencyOrder?_isOrder h).1

/-! ## The dependencies of functions in order -/

/-- Where names differ, whoever bears a name is the first to do so. -/
theorem firstNamed_iff (hnames : (functions.map (·.name)).Nodup) {name : String} {j : Nat} :
    FirstNamed functions name j ↔ ∃ g, functions[j]? = some g ∧ g.name = name := by
  refine ⟨fun h => h.1, fun h => ⟨h, ?_⟩⟩
  obtain ⟨g, hg, rfl⟩ := h
  intro k hk f hf heq
  have hj : j < (functions.map (·.name)).length := by
    rw [List.length_map]
    exact (List.getElem?_eq_some_iff.mp hg).1
  apply List.nodup_iff_getElem?_ne_getElem?.mp hnames k j hk hj
  rw [List.getElem?_map, List.getElem?_map, hf, hg]
  exact congrArg some heq

/-- A dependency of functions of a scope is one of them as they are taken. -/
theorem dependsOn_taken (hnames : (functions.map (·.name)).Nodup)
    (hnames' : (taken.map (·.name)).Nodup) (h : IsTakenBy order functions taken) {i j k l : Nat}
    (hk : order[k]? = some i) (hl : order[l]? = some j) :
    DependsOn scope taken k l ↔ DependsOn scope functions i j := by
  unfold DependsOn
  simp only [firstNamed_iff hnames, firstNamed_iff hnames', h.getElem?_eq hk, h.getElem?_eq hl]

/-- Taken in turn, functions are released at the same moments as before. -/
theorem releasedAt_taken (hnames : (functions.map (·.name)).Nodup)
    (hturn : InTurn (callees scope functions) order) (h : IsTakenBy order functions taken)
    {i k : Nat} (hk : order[k]? = some i) :
    releasedAt (callees scope taken) (List.range taken.length) k =
      releasedAt (callees scope functions) order i := by
  have hnames' : (taken.map (·.name)).Nodup :=
    ((h.perm hturn.perm_range).map _).nodup_iff.mpr hnames
  have hlength := h.length_eq
  -- the new place of a callee is its place in the order
  apply releasedAt_eq_of_places
  intro place
  simp only [mem_callees_iff]
  constructor
  · rintro ⟨l, hd, rfl⟩
    have hl : l < order.length := hlength ▸ (dependsOn_lt hd).2
    refine ⟨order[l], (dependsOn_taken hnames hnames' h hk (List.getElem?_eq_getElem hl)).mp hd, ?_⟩
    rw [Lists.idxOf_range (hlength ▸ hl), hturn.nodup.idxOf_getElem]
  · rintro ⟨j, hd, rfl⟩
    have hj := (hturn.mem_of_dependsOn hd).2
    have hplace := List.getElem?_idxOf hj
    refine ⟨order.idxOf j, (dependsOn_taken hnames hnames' h hk hplace).mpr hd, ?_⟩
    exact Lists.idxOf_range (hlength ▸ List.idxOf_lt_length_of_mem hj)

/-- Functions that were taken in turn are in turn as they stand. -/
theorem inTurn_taken (hnames : (functions.map (·.name)).Nodup)
    (hturn : InTurn (callees scope functions) order) (h : IsTakenBy order functions taken) :
    InTurn (callees scope taken) (List.range taken.length) := by
  rw [h.length_eq]
  have hreleased : ∀ k (hk : k < order.length),
      releasedAt (callees scope taken) (List.range order.length) k =
        releasedAt (callees scope functions) order order[k] := by
    intro k hk
    rw [← h.length_eq]
    exact releasedAt_taken hnames hturn h (List.getElem?_eq_getElem hk)
  refine ⟨by rw [length_callees, h.length_eq], ?_, ?_⟩
  · intro k hk
    have hk := List.mem_range.mp hk
    have hbefore := hturn.released _ (List.getElem_mem hk)
    rw [hturn.nodup.idxOf_getElem] at hbefore
    rwa [Lists.idxOf_range hk, hreleased k hk]
  · apply List.pairwise_lt_range.imp_of_mem
    intro k l hk hl hlt
    have hk := List.mem_range.mp hk
    have hl := List.mem_range.mp hl
    have hprecedes := List.pairwise_iff_getElem.mp hturn.sorted k l hk hl hlt
    unfold Precedes at hprecedes ⊢
    rw [hreleased k hk, hreleased l hl]
    omega

/-- **Sorting is idempotent** where no two functions of a scope have the same name. -/
theorem sort_sort (hnames : (functions.map (·.name)).Nodup) :
    sort scope (sort scope functions) = sort scope functions := by
  cases h : dependencyOrder? scope functions with
  | none => rw [sort_of_eq_none h, sort_of_eq_none h]
  | some order =>
    have hturn := inTurn_of_eq_some h
    have hagain := inTurn_taken hnames hturn (isTakenBy_sort h)
    have htaken := isTakenBy_sort (dependencyOrder?_eq_some_iff.mpr hagain)
    apply (Option.some_injective FunctionOutline).list_map
    rw [htaken]
    apply List.ext_getElem
    · simp
    · intro i hi hi'
      simp

/-- Callees come first already, but not in turn: the first sorting moves functions, the second
one does not. -/
theorem sort_sort_calleesFirst :
    let call := fun name => (⟨some "self", name, 1⟩ : CallRef)
    let functions : List FunctionOutline := [
      .named "parse" [], .named "read" [call "parse"], .named "check" [],
      .named "open" [call "check"], .named "run" [call "open", call "read"]]
    (functions.map (·.name)).Nodup ∧
      (sort .methods functions).map (·.name) = ["parse", "check", "read", "open", "run"] ∧
      sort .methods (sort .methods functions) = sort .methods functions :=
  ⟨by decide, by decide, sort_sort (by decide)⟩

end SourceFacts.CallOrder
