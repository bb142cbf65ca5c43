import Mathlib.Data.String.Basic
import SourceFacts.Feature.Json
import SourceFacts.Proofs.Json.RoundTrip
import SourceFacts.Proofs.Tables

/-!
# Lists and tables as JSON

What is written of a list or of a table is read back, as long as each of its values is
(`asList_list`, `asTable_object`). A table that is read lists its keys in order, however the object
was written (`ordered_of_asTable`): this is what tells tables from other lists of pairs
(`Table.Ordered`).
-/

namespace SourceFacts

variable {α β ε : Type}

/-! ## Tables -/

namespace Table

/-- The keys of a table stand in order, none of them twice. -/
def Ordered (t : Table α) : Prop := t.entries.Pairwise fun a b => a.1 < b.1

theorem Ordered.set {t : Table α} (h : t.Ordered) (key : String) (value : α) :
    (t.set key value).Ordered :=
  pairwise_setIn h

theorem ordered_empty : (empty : Table α).Ordered := List.Pairwise.nil

theorem ordered_ofPairs (pairs : List (String × α)) : (ofPairs pairs).Ordered := by
  have hfold : ∀ t : Table α, t.Ordered →
      (pairs.foldl (fun t pair => t.set pair.1 pair.2) t).Ordered := by
    induction pairs with
    | nil => exact fun t h => h
    | cons pair rest ih => exact fun t h => ih _ (h.set pair.1 pair.2)
  exact hfold empty ordered_empty

theorem setIn_of_keys_lt {key : String} (value : α) {entries : List (String × α)}
    (h : ∀ e ∈ entries, e.1 < key) : setIn key value entries = entries ++ [(key, value)] := by
  induction entries with
  | nil => rfl
  | cons entry rest ih =>
    obtain ⟨k, v⟩ := entry
    have hlt : k < key := h _ List.mem_cons_self
    have hrest := ih fun e he => h e (List.mem_cons_of_mem _ he)
    rw [setIn, if_neg (not_lt_of_gt hlt), if_neg (ne_of_gt hlt), hrest, List.cons_append]

/-- A table is made again of its own entries. -/
theorem Ordered.ofPairs_entries {t : Table α} (h : t.Ordered) : ofPairs t.entries = t := by
  -- Entries are added one by one behind those that are there already.
  have hfold : ∀ rest done : List (String × α),
      (done ++ rest).Pairwise (fun a b => a.1 < b.1) →
      rest.foldl (fun t pair => t.set pair.1 pair.2) (⟨done⟩ : Table α) = ⟨done ++ rest⟩ := by
    intro rest
    induction rest with
    | nil => simp
    | cons pair rest ih =>
      intro done hdone
      obtain ⟨k, v⟩ := pair
      have hlast : ∀ e ∈ done, e.1 < k := fun e he =>
        (List.pairwise_append.mp hdone).2.2 e he (k, v) List.mem_cons_self
      have hset : (⟨done⟩ : Table α).set k v = ⟨done ++ [(k, v)]⟩ :=
        congrArg Table.mk (setIn_of_keys_lt v hlast)
      rw [List.foldl_cons]
      dsimp only
      rw [hset, ih _ (by simpa using hdone)]
      simp
  exact hfold t.entries [] h

end Table

namespace Json

variable {f : Json → Except Misfit α} {g : α → Json}

/-! ## Writing -/

theorem plain_list (hg : ∀ a, Plain (g a)) (items : List α) : Plain (.list (items.map g)) := by
  refine .list fun j hj => ?_
  obtain ⟨a, -, rfl⟩ := List.mem_map.mp hj
  exact hg a

theorem plain_strings (items : List String) : Plain (strings items) := plain_list .string items

theorem plain_ofOption_string (o : Option String) : Plain (.ofOption .string o) := by
  cases o with
  | none => exact .null
  | some s => exact .string s

theorem plain_entries (hg : ∀ a, Plain (g a)) (t : Table α) :
    Plain (.object (t.entries.map fun (k, a) => (k, g a))) := by
  refine .object fun e he => ?_
  obtain ⟨e', -, rfl⟩ := List.mem_map.mp he
  exact hg e'.2

theorem plain_present (fields : List (String × Option String)) : Plain (present fields) := by
  refine .object fun f hf => ?_
  obtain ⟨_, -, hgiven⟩ := List.mem_filterMap.mp hf
  obtain ⟨s, -, rfl⟩ := Option.map_eq_some_iff.mp hgiven
  exact .string s

theorem areSound_strings (depth : Nat) (items : List String) :
    areSound depth (items.map .string) = true := by
  induction items with
  | nil => rfl
  | cons s rest ih => simp [areSound, isSound, ih]

/-! ## Reading -/

theorem bind_eq_ok_iff {x : Except ε α} {f : α → Except ε β} {b : β} :
    (x >>= f) = .ok b ↔ ∃ a, x = .ok a ∧ f a = .ok b := by
  cases x with
  | error e => exact ⟨nofun, fun ⟨a, h, _⟩ => nomatch h⟩
  | ok a => exact ⟨fun h => ⟨a, rfl, h⟩, fun ⟨a', h, hf⟩ => by cases h; exact hf⟩

theorem mapM_eq_ok_of_forall {γ : Type} {read : γ → Except ε β} {write : β → γ} {items : List β}
    (h : ∀ b ∈ items, read (write b) = .ok b) : (items.map write).mapM read = .ok items := by
  induction items with
  | nil => rfl
  | cons b rest ih =>
    have hrest := ih fun b' hb' => h b' (List.mem_cons_of_mem b hb')
    rw [List.map_cons, List.mapM_cons, h b List.mem_cons_self, hrest]
    rfl

/-- What a list is read as comes from its items. -/
theorem exists_of_mem_mapM {γ : Type} {read : γ → Except ε β} {items : List γ} {found : List β}
    (h : items.mapM read = .ok found) : ∀ b ∈ found, ∃ c ∈ items, read c = .ok b := by
  induction items generalizing found with
  | nil =>
    cases h
    simp
  | cons c rest ih =>
    simp only [List.mapM_cons, bind_eq_ok_iff] at h
    obtain ⟨b, hb, others, hothers, hfound⟩ := h
    cases hfound
    intro b' hb'
    rcases List.mem_cons.mp hb' with rfl | hb'
    · exact ⟨c, List.mem_cons_self, hb⟩
    · obtain ⟨c', hc', hread⟩ := ih hothers b' hb'
      exact ⟨c', List.mem_cons_of_mem c hc', hread⟩

theorem asList_list {items : List α} (h : ∀ a ∈ items, f (g a) = .ok a) :
    asList f (.list (items.map g)) = .ok items :=
  mapM_eq_ok_of_forall h

theorem exists_of_mem_asList {j : Json} {items : List α} (h : asList f j = .ok items) :
    ∀ a ∈ items, ∃ j', f j' = .ok a := by
  unfold asList at h
  split at h
  · intro a ha
    obtain ⟨j', -, hj'⟩ := exists_of_mem_mapM h a ha
    exact ⟨j', hj'⟩
  · cases h

@[simp] theorem asList_strings (items : List String) :
    asList asString (strings items) = .ok items :=
  asList_list fun _ _ => rfl

@[simp] theorem asOption_ofOption_string (o : Option String) :
    asOption asString (ofOption .string o) = .ok o := by
  cases o <;> rfl

theorem asOption_eq_some {j : Json} {a : α} (h : asOption f j = .ok (some a)) : f j = .ok a := by
  cases j with
  | null => cases h
  | _ =>
    obtain ⟨a', ha, hsome⟩ := bind_eq_ok_iff.mp h
    cases hsome
    exact ha

theorem asNat32_nat {n : Nat} (h : n < UInt32.size) : asNat32 (nat n) = .ok n := by
  have hint : (n : Int) < UInt32.size := by exact_mod_cast h
  rw [nat, asNat32, if_pos (by simpa using hint), Int.toNat_natCast]

theorem lt_of_asNat32 {j : Json} {n : Nat} (h : asNat32 j = .ok n) : n < UInt32.size := by
  unfold asNat32 at h
  split at h
  · split at h
    · rename_i m hm
      cases h
      simp only [Bool.and_eq_true, decide_eq_true_eq] at hm
      omega
    · cases h
  · cases h

theorem asTable_object {t : Table α} (ht : t.Ordered) (h : ∀ e ∈ t.entries, f (g e.2) = .ok e.2) :
    asTable f (.object (t.entries.map fun (k, a) => (k, g a))) = .ok t := by
  rw [asTable, mapM_eq_ok_of_forall fun e he => ?_]
  · exact congrArg Except.ok ht.ofPairs_entries
  · dsimp only
    rw [h e he]
    rfl

theorem ordered_of_asTable {j : Json} {t : Table α} (h : asTable f j = .ok t) : t.Ordered := by
  unfold asTable at h
  split at h
  · obtain ⟨pairs, -, hpairs⟩ := bind_eq_ok_iff.mp h
    cases hpairs
    exact Table.ordered_ofPairs pairs
  · cases h

/-! ## Fields -/

namespace Record

variable {r : Record} {name : String} {a : α}

theorem required_of_value? {j : Json} (h : r.value? name = some j) : r.required name f = f j := by
  rw [required, h]

theorem withDefault_of_value? {j : Json} (h : r.value? name = some j) (default : α) :
    r.withDefault name default f = f j := by
  rw [withDefault, h]

theorem optional_of_value? {j : Json} (h : r.value? name = some j) :
    r.optional name f = asOption f j := by
  rw [optional, h]

theorem exists_of_required (h : r.required name f = .ok a) : ∃ j, f j = .ok a := by
  unfold required at h
  split at h
  · exact ⟨_, h⟩
  · cases h

theorem eq_or_exists_of_withDefault {default : α} (h : r.withDefault name default f = .ok a) :
    a = default ∨ ∃ j, f j = .ok a := by
  unfold withDefault at h
  split at h
  · exact Or.inr ⟨_, h⟩
  · cases h
    exact Or.inl rfl

end Record

end Json

end SourceFacts
