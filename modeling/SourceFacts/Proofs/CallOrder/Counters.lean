import SourceFacts.Proofs.CallOrder.Turns
import Mathlib.Data.List.GetD
import Mathlib.Data.Set.Card

/-!
# The counters of the ordering

The counter of a function is the number of functions that it depends on and that are not placed
yet (`openDependencies`). So it is between steps. Within a step, after a function has been placed
and some of its callers have been released, it still is for all but the callers that are yet to be
released, whose counters are one above (`Sound.missing_midway`). Hence no counter is zero when it
is lowered.

Whoever enters the queue stands in the line from then on (`entered_eq_line`), and nobody stands
there twice. As long as somebody waits each step places one function, so that after no more steps
than there are functions nobody does (`exists_end`).
-/

namespace SourceFacts.CallOrder

/-- How many functions the one at `i` depends on that are not placed. -/
noncomputable def openDependencies (scope : Scope) (functions : List FunctionOutline)
    (placed : List Nat) (i : Nat) : Nat :=
  {j | DependsOn scope functions i j ∧ j ∉ placed}.ncard

namespace Progress

/-- At some moment within the step from `p` the ordering stands at `q`, and `left` are the callers
yet to be released. -/
def Midway (callees : List (List Nat)) (p q : Progress) (left : List Nat) : Prop :=
  ∃ a rest released, p.queue = a :: rest ∧ callersOf callees a = released ++ left ∧
    q = released.foldl release { p with queue := rest, placed := a :: p.placed }

/-- What a step adds to the queue, behind those that go on waiting. -/
def arrivals (callees : List (List Nat)) (p : Progress) : List Nat :=
  (p.step callees).queue.drop (p.queue.length - 1)

/-- All that have entered the queue after so many steps, once for each time that they did. -/
def entered (callees : List (List Nat)) (n : Nat) : List Nat :=
  (start callees).queue ++
    (List.range n).flatMap fun k => ((start callees).run callees k).arrivals callees

end Progress

/-- Where the ordering of a scope stands after so many steps. -/
def progressAfter (scope : Scope) (functions : List FunctionOutline) (n : Nat) : Progress :=
  (Progress.start (callees scope functions)).run (callees scope functions) n

/-- How the ordering of a scope keeps count. -/
structure KeepsCount (scope : Scope) (functions : List FunctionOutline) : Prop where
  between : ∀ n, ∀ i < functions.length,
    (progressAfter scope functions n).missing[i]? =
      some (openDependencies scope functions (progressAfter scope functions n).placed i)
  within : ∀ n q left,
    Progress.Midway (callees scope functions) (progressAfter scope functions n) q left →
      ∀ i < functions.length, q.missing[i]? =
        some (openDependencies scope functions q.placed i + if i ∈ left then 1 else 0)
  /-- A caller that is about to be released has a counter, and this is not zero. -/
  lowered : ∀ n q c left,
    Progress.Midway (callees scope functions) (progressAfter scope functions n) q (c :: left) →
      ∃ m, q.missing[c]? = some (m + 1)
  /-- Nobody enters the queue twice. -/
  once : ∀ n, (Progress.entered (callees scope functions) n).Nodup
  /-- After so many steps, each of which places a function, nobody waits, and the answer is read
  off what has been placed. -/
  ends : ∃ n ≤ functions.length,
    (∀ k < n, (progressAfter scope functions k).queue ≠ []) ∧
      (progressAfter scope functions n).queue = [] ∧
      (progressAfter scope functions n).placed.length = n ∧
      dependencyOrder? scope functions =
        if n = functions.length then some (progressAfter scope functions n).placed.reverse
        else none

namespace Progress

variable {cs : List (List Nat)} {p q : Progress} {left : List Nat}

/-! ## Steps together -/

theorem run_succ (n : Nat) (p : Progress) : p.run cs (n + 1) = (p.run cs n).step cs := by
  induction n generalizing p with
  | zero => rfl
  | succ n ih => exact ih (p.step cs)

theorem run_add (m n : Nat) (p : Progress) : p.run cs (m + n) = (p.run cs m).run cs n := by
  induction n with
  | zero => rfl
  | succ n ih => rw [← Nat.add_assoc, run_succ, run_succ, ih]

theorem exists_end (hcs : Proper cs) :
    ∃ n ≤ cs.length, (∀ k < n, ((start cs).run cs k).queue ≠ []) ∧
      ((start cs).run cs n).queue = [] ∧ ((start cs).run cs n).placed.length = n := by
  have hend : ∃ n, ((start cs).run cs n).queue = [] := ⟨cs.length, queue_run hcs⟩
  refine ⟨Nat.find hend, Nat.find_min' hend (queue_run hcs), fun k => Nat.find_min hend,
    Nat.find_spec hend, ?_⟩
  cases hn : Nat.find hend with
  | zero => rfl
  | succ n =>
    -- somebody waits before the last step, so every step until then has placed a function
    have hwaits : ((start cs).run cs n).queue ≠ [] := Nat.find_min hend (by omega)
    have hplaced := (queue_run_or_placed_run cs (start cs) n).resolve_left hwaits
    obtain ⟨a, rest, hq⟩ := List.exists_cons_of_ne_nil hwaits
    have hnone : (start cs).placed.length = 0 := rfl
    rw [run_succ, placed_step hq, List.length_cons]
    omega

/-! ## Every function has a counter -/

theorem length_missing_releaseAll (callers : List Nat) (p : Progress) :
    (callers.foldl release p).missing.length = p.missing.length := by
  induction callers generalizing p with
  | nil => rfl
  | cons c rest ih => rw [List.foldl_cons, ih, release, List.length_set]

theorem length_missing_run (n : Nat) (p : Progress) :
    (p.run cs n).missing.length = p.missing.length := by
  induction n with
  | zero => rfl
  | succ n ih =>
    rw [run_succ, ← ih]
    cases hq : (p.run cs n).queue with
    | nil => rw [step_of_queue_nil hq]
    | cons a rest => rw [step_of_queue_cons hq, length_missing_releaseAll]

theorem Midway.length_missing (h : Midway cs p q left) : q.missing.length = p.missing.length := by
  obtain ⟨a, rest, released, -, -, rfl⟩ := h
  rw [length_missing_releaseAll]

/-! ## Counters within a step -/

theorem Sound.missing_midway (hcs : Proper cs) (h : Sound cs p) (hmid : Midway cs p q left)
    (i : Nat) : q.missing.getD i 0 = unplaced cs q.placed i + if i ∈ left then 1 else 0 := by
  obtain ⟨a, rest, released, hq, hcallers, rfl⟩ := hmid
  have hn : (released ++ left).Nodup := hcallers ▸ nodup_callersOf
  obtain ⟨hreleased, -, hdisjoint⟩ := List.nodup_append.mp hn
  have hbefore : p.missing.getD i 0 =
      unplaced cs (a :: p.placed) i + if i ∈ released ++ left then 1 else 0 := by
    rw [h.missing, unplaced_cons hcs (h.head_notMem_placed hq)]
    simp only [hcallers]
  rw [missing_releaseAll hreleased, placed_releaseAll, hbefore]
  by_cases hi : i ∈ released
  · -- a caller is released once, and its counter goes down by the one that was above
    have hleft : i ∉ left := fun hleft => hdisjoint i hi i hleft rfl
    simp [hi, hleft]
  · simp [hi]

/-! ## Entering the queue -/

theorem arrivals_of_queue_cons {a : Nat} {rest : List Nat} (hq : p.queue = a :: rest) :
    p.arrivals cs = (callersOf cs a).filter fun c => p.missing.getD c 0 ≤ 1 := by
  rw [arrivals, queue_step hq, hq, List.length_cons, Nat.add_sub_cancel, List.drop_left]

theorem line_step_eq (cs : List (List Nat)) (p : Progress) :
    (p.step cs).line = p.line ++ p.arrivals cs := by
  cases hq : p.queue with
  | nil => rw [arrivals, step_of_queue_nil hq, hq, List.drop_nil, List.append_nil]
  | cons a rest => rw [line_step hq, arrivals_of_queue_cons hq]

theorem entered_eq_line (n : Nat) : entered cs n = ((start cs).run cs n).line := by
  induction n with
  | zero => simp [entered, run, line, start]
  | succ n ih =>
    have hmore : entered cs (n + 1) = entered cs n ++ ((start cs).run cs n).arrivals cs := by
      simp [entered, List.range_succ]
    rw [hmore, ih, run_succ, line_step_eq]

theorem Sound.nodup_line (h : Sound cs p) : p.line.Nodup := by
  have hperm : p.line.Perm (p.queue ++ p.placed) :=
    ((List.reverse_perm p.placed).append_right p.queue).trans List.perm_append_comm
  exact hperm.nodup_iff.mpr h.unique

end Progress

/-! ## The ordering of a scope -/

variable {scope : Scope} {functions : List FunctionOutline} {q : Progress} {left : List Nat}

theorem unplaced_callees (placed : List Nat) (i : Nat) :
    unplaced (callees scope functions) placed i = openDependencies scope functions placed i := by
  have hset : {j | DependsOn scope functions i j ∧ j ∉ placed} =
      (((callees scope functions).getD i []).filter (· ∉ placed)).toFinset := by
    ext j
    rw [List.coe_toFinset, Set.mem_ofPred_eq, Set.mem_ofPred_eq, List.mem_filter,
      mem_callees_iff, decide_eq_true_eq]
  have hn : (((callees scope functions).getD i []).filter (· ∉ placed)).Nodup :=
    (callees_proper.nodup i).filter _
  rw [openDependencies, hset, Set.ncard_coe_finset, List.toFinset_card_of_nodup hn, unplaced,
    List.countP_eq_length_filter]

theorem sound_after (scope : Scope) (functions : List FunctionOutline) (n : Nat) :
    Progress.Sound (callees scope functions) (progressAfter scope functions n) :=
  (Progress.Sound.start _).run callees_proper n

theorem length_missing_after (n : Nat) :
    (progressAfter scope functions n).missing.length = functions.length := by
  rw [progressAfter, Progress.length_missing_run, Progress.start, List.length_map, length_callees]

theorem getElem?_missing {i m : Nat} (hlength : q.missing.length = functions.length)
    (hi : i < functions.length) (hcount : q.missing.getD i 0 = m) : q.missing[i]? = some m := by
  have hlt : i < q.missing.length := hlength ▸ hi
  rw [List.getElem?_eq_getElem hlt, ← hcount, List.getD_eq_getElem _ _ hlt]

theorem getElem?_missing_after (n : Nat) {i : Nat} (hi : i < functions.length) :
    (progressAfter scope functions n).missing[i]? =
      some (openDependencies scope functions (progressAfter scope functions n).placed i) := by
  have hcount := (sound_after scope functions n).missing i
  rw [unplaced_callees] at hcount
  exact getElem?_missing (length_missing_after n) hi hcount

theorem getElem?_missing_midway {n : Nat}
    (h : Progress.Midway (callees scope functions) (progressAfter scope functions n) q left)
    {i : Nat} (hi : i < functions.length) :
    q.missing[i]? =
      some (openDependencies scope functions q.placed i + if i ∈ left then 1 else 0) := by
  have hcount := (sound_after scope functions n).missing_midway callees_proper h i
  rw [unplaced_callees] at hcount
  exact getElem?_missing (h.length_missing.trans (length_missing_after n)) hi hcount

/-- Whoever is released is a function of the scope. -/
theorem lt_of_midway {p : Progress} {c : Nat}
    (h : Progress.Midway (callees scope functions) p q (c :: left)) : c < functions.length := by
  obtain ⟨a, rest, released, -, hcallers, -⟩ := h
  have hc : c ∈ callersOf (callees scope functions) a := by
    rw [hcallers]
    exact List.mem_append_right released List.mem_cons_self
  have hcall := mem_callees_iff.mp (mem_callersOf.mp hc)
  exact (dependsOn_lt hcall).1

/-- Once nobody waits, more steps change nothing. -/
theorem dependencyOrder?_of_queue_nil {n : Nat} (hn : n ≤ functions.length)
    (hq : (progressAfter scope functions n).queue = [])
    (hlen : (progressAfter scope functions n).placed.length = n) :
    dependencyOrder? scope functions =
      if n = functions.length then some (progressAfter scope functions n).placed.reverse
      else none := by
  obtain ⟨more, hmore⟩ := Nat.exists_eq_add_of_le hn
  have hall : (Progress.start (callees scope functions)).run (callees scope functions)
      (callees scope functions).length = progressAfter scope functions n := by
    rw [length_callees, hmore, Progress.run_add]
    exact Progress.run_of_queue_nil hq more
  unfold dependencyOrder?
  dsimp only
  rw [hall, hlen, length_callees]

/-- **No counter runs out.** Counters are numbers of dependencies that are not placed, between
steps and within them, so that none is zero when it is lowered. Every function enters the queue
once at most, and after no more steps than there are functions nobody waits. -/
theorem dependencyOrder?_keepsCount (scope : Scope) (functions : List FunctionOutline) :
    KeepsCount scope functions where
  between n i := getElem?_missing_after n
  within n q left hmid i := getElem?_missing_midway hmid
  lowered n q c left hmid := by
    have hc := getElem?_missing_midway hmid (lt_of_midway hmid)
    rw [if_pos List.mem_cons_self] at hc
    exact ⟨_, hc⟩
  once n := by
    rw [Progress.entered_eq_line]
    exact (sound_after scope functions n).nodup_line
  ends := by
    have hcs : Proper (callees scope functions) := callees_proper
    obtain ⟨n, hn, hwait, hend, hplaced⟩ := Progress.exists_end hcs
    rw [length_callees] at hn
    exact ⟨n, hn, hwait, hend, hplaced, dependencyOrder?_of_queue_nil hn hend hplaced⟩

/-- A call that is made twice, two functions of one name, and a cycle, before which the ordering
ends. Within the first step one of three callers has been released. -/
theorem dependencyOrder?_keepsCount_namesakes :
    let call := fun name => (⟨none, name, 1⟩ : CallRef)
    let functions : List FunctionOutline := [
      .named "top" [call "base", call "left", call "base"], .named "left" [call "base"],
      .named "base" [], .named "base" [call "top"],
      .named "odd" [call "even"], .named "even" [call "odd", call "base"]]
    (progressAfter .functions functions 0).missing = [2, 1, 0, 1, 1, 2] ∧
      Progress.Midway (callees .functions functions) (progressAfter .functions functions 0)
        { missing := [1, 1, 0, 1, 1, 2], queue := [], placed := [2] } [1, 5] ∧
      (progressAfter .functions functions 6).missing = [0, 0, 0, 0, 1, 1] ∧
      Progress.entered (callees .functions functions) 6 = [2, 1, 0, 3] ∧
      KeepsCount .functions functions :=
  ⟨rfl, ⟨2, [], [0], rfl, rfl, rfl⟩, rfl, rfl, dependencyOrder?_keepsCount _ _⟩

end SourceFacts.CallOrder
