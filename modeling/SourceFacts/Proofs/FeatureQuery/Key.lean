import SourceFacts.FeatureQuery
import SourceFacts.Proofs.Json.Values
import SourceFacts.Proofs.Lists

/-!
# What the key of a query identifies

Two keys are equal exactly when the languages, the templates, the texts of the templates and the
shaping fields of the features are (`cacheKey_eq_iff`). What a feature is called in prose and
whether it is an entry point is in no key (`cacheKey_congr`).

A key splits at its colons, because neither names nor digests have any. Digests stand for what
was digested as long as there is no collision among it (`Blake3.NoCollision`), and the shaping
fields can be recovered from their compact form.
-/

namespace SourceFacts

/-! ## Digests -/

namespace Blake3

/-- No two of the texts share a digest. -/
def NoCollision (texts : List String) : Prop :=
  ∀ a ∈ texts, ∀ b ∈ texts, hex a = hex b → a = b

theorem NoCollision.mono {texts more : List String} (h : NoCollision more)
    (hsub : ∀ a ∈ texts, a ∈ more) : NoCollision texts :=
  fun a ha b hb => h a (hsub a ha) b (hsub b hb)

theorem NoCollision.pair {texts : List String} {a b : String} (h : NoCollision texts)
    (ha : a ∈ texts) (hb : b ∈ texts) : NoCollision [a, b] :=
  h.mono (by simp [ha, hb])

theorem noCollision_of_nodup {texts : List String} (h : (texts.map hex).Nodup) :
    NoCollision texts :=
  fun _ ha _ hb => List.inj_on_of_nodup_map h ha hb

theorem noCollision_replicate (n : Nat) (text : String) : NoCollision (List.replicate n text) :=
  fun _ ha _ hb _ => (List.eq_of_mem_replicate ha).trans (List.eq_of_mem_replicate hb).symm

theorem colon_notMem_hexByte (n : Nat) : ':' ∉ hexByte n := by
  have hdigit : ∀ d < 16,
      ':' ≠ if d < 10 then Char.ofNat (48 + d) else Char.ofNat (87 + d) := by decide
  simp only [hexByte, List.mem_cons, List.not_mem_nil, or_false, not_or]
  exact ⟨hdigit _ (Nat.mod_lt _ (by decide)), hdigit _ (Nat.mod_lt _ (by decide))⟩

theorem colon_notMem_hex (text : String) : ':' ∉ (hex text).toList := by
  rw [hex, String.toList_ofList, List.mem_flatMap]
  rintro ⟨w, -, hw⟩
  rw [hexWord, List.mem_flatMap] at hw
  obtain ⟨k, -, hk⟩ := hw
  exact colon_notMem_hexByte _ hk

end Blake3

/-! ## Names -/

theorem TargetLevel.name_injective : Function.Injective TargetLevel.name := by
  rintro (_ | _) (_ | _) <;> decide

theorem Concept.name_injective : Function.Injective Concept.name := by
  rintro (_ | _ | _) (_ | _ | _) <;> decide

theorem LocatorStrategy.name_injective : Function.Injective LocatorStrategy.name := by
  rintro (_ | _) (_ | _) <;> decide

theorem Language.name_injective : Function.Injective Language.name := by
  rintro (_ | _ | _) (_ | _ | _) <;> decide

theorem Template.name_injective : Function.Injective Template.name := by
  rintro (_ | _ | _ | _) (_ | _ | _ | _) <;> decide

theorem Language.colon_notMem_name (l : Language) : ':' ∉ l.name.toList := by
  cases l <;> decide

theorem Template.colon_notMem_name (t : Template) : ':' ∉ t.name.toList := by
  cases t <;> decide

/-! ## Fields that may be absent -/

namespace Json

/-- What is written of a field. -/
def given (f : String × Option String) : Option (String × Json) :=
  f.2.map fun s => (f.1, .string s)

theorem present_eq (fields : List (String × Option String)) :
    present fields = .object (fields.filterMap given) := rfl

theorem mem_names_of_given {fields : List (String × Option String)} {k : String} {j : Json}
    {rest : List (String × Json)} (h : fields.filterMap given = (k, j) :: rest) :
    k ∈ fields.map (·.1) := by
  have hmem : (k, j) ∈ fields.filterMap given := h ▸ List.mem_cons_self
  obtain ⟨f, hf, hgiven⟩ := List.mem_filterMap.mp hmem
  obtain ⟨s, -, hs⟩ := Option.map_eq_some_iff.mp hgiven
  obtain ⟨rfl, -⟩ := Prod.mk.inj hs
  exact List.mem_map_of_mem hf

/-- Fields under the same names are recovered from what is written of them. -/
theorem eq_of_given_eq {fields others : List (String × Option String)}
    (hnames : fields.map (·.1) = others.map (·.1))
    (h : fields.filterMap given = others.filterMap given)
    (hnodup : (fields.map (·.1)).Nodup) : fields = others := by
  induction fields generalizing others with
  | nil => exact (List.map_eq_nil_iff.mp hnames.symm).symm
  | cons a fields ih =>
    cases others with
    | nil => exact absurd hnames (List.cons_ne_nil _ _)
    | cons b others =>
      obtain ⟨k, v⟩ := a
      obtain ⟨k', v'⟩ := b
      rw [List.map_cons, List.map_cons, List.cons.injEq] at hnames
      rw [List.map_cons, List.nodup_cons] at hnodup
      obtain ⟨rfl, htails⟩ := hnames
      obtain ⟨hk, hnodup⟩ := hnodup
      -- A field that is given only on one side would have to come again on the other.
      cases v with
      | none =>
        cases v' with
        | none => rw [ih htails h hnodup]
        | some s' =>
          have hmem : k ∈ fields.map (·.1) := mem_names_of_given h
          exact absurd hmem hk
      | some s =>
        cases v' with
        | none =>
          have hmem : k ∈ others.map (·.1) := mem_names_of_given h.symm
          exact absurd (htails ▸ hmem) hk
        | some s' =>
          obtain ⟨hhead, htail⟩ := List.cons.inj h
          rw [Json.string.inj (Prod.mk.inj hhead).2, ih htails htail hnodup]

theorem strings_injective : Function.Injective strings := fun _ _ h =>
  List.map_injective_iff.mpr (fun _ _ hs => Json.string.inj hs) (Json.list.inj h)

end Json

theorem ConstructQuery.toSortedJson_injective :
    Function.Injective ConstructQuery.toSortedJson := by
  rintro ⟨m, d, c, s⟩ ⟨m', d', c', s'⟩ h
  simp only [ConstructQuery.toSortedJson, Json.present_eq, Json.object.injEq] at h
  have hnodup : ["annotation_name", "callee", "method", "superclass"].Nodup := by decide
  have hfields := Json.eq_of_given_eq (by rfl) h hnodup
  simp only [List.cons.injEq, Prod.mk.injEq, true_and, and_true] at hfields
  obtain ⟨rfl, rfl, rfl, rfl⟩ := hfields
  rfl

/-! ## What shapes a query -/

namespace FeatureQuery

/-- Two features agree on all that shapes their queries. -/
structure SameShape (f g : Feature) : Prop where
  key : f.key = g.key
  library : f.library = g.library
  paths : f.paths = g.paths
  target : f.target = g.target
  concept : f.concept = g.concept
  strategy : f.strategy = g.strategy
  constructs : f.constructs = g.constructs

theorem SameShape.shape_eq {f g : Feature} (h : SameShape f g) : shape f = shape g := by
  rw [shape, h.key, h.library, h.paths, h.target, h.concept, h.strategy, h.constructs, shape]

theorem constructsJson_injective :
    Function.Injective (Feature.constructsJson ConstructQuery.toSortedJson) := by
  rintro ⟨entries⟩ ⟨others⟩ h
  have hpair : Function.Injective fun e : String × ConstructQuery => (e.1, e.2.toSortedJson) := by
    intro e e' he
    obtain ⟨hkey, hquery⟩ := Prod.mk.inj he
    exact Prod.ext hkey (ConstructQuery.toSortedJson_injective hquery)
  exact congrArg Table.mk (List.map_injective_iff.mpr hpair (Json.object.inj h))

theorem ofOption_injective {α : Type} {encode : α → Json} (hnull : ∀ a, encode a ≠ .null)
    (hinj : Function.Injective encode) : Function.Injective (Json.ofOption encode) := by
  intro x y h
  cases x with
  | none =>
    cases y with
    | none => rfl
    | some b => exact absurd h.symm (hnull b)
  | some a =>
    cases y with
    | none => exact absurd h (hnull a)
    | some b => rw [hinj h]

/-- The shaping fields can be recovered from what is digested of a feature. -/
theorem sameShape_of_shape_eq {f g : Feature} (h : shape f = shape g) : SameShape f g := by
  simp only [shape, Json.object.injEq, List.cons.injEq, Prod.mk.injEq, true_and, and_true,
    Json.string.injEq, Concept.toJson, LocatorStrategy.toJson, TargetLevel.toJson] at h
  obtain ⟨hpaths, hconcept, hconstructs, hkey, hlibrary, hstrategy, htarget⟩ := h
  exact {
    key := hkey
    library := hlibrary
    paths := Json.strings_injective hpaths
    target := TargetLevel.name_injective htarget
    concept := Concept.name_injective hconcept
    strategy := LocatorStrategy.name_injective hstrategy
    constructs := ofOption_injective (fun _ => Json.noConfusion) constructsJson_injective
      hconstructs }

theorem plain_constructs (constructs : Option (Table ConstructQuery)) :
    Json.Plain (.ofOption (Feature.constructsJson ConstructQuery.toSortedJson) constructs) := by
  cases constructs with
  | none => exact .null
  | some table =>
    refine .object fun f hf => ?_
    obtain ⟨_, -, rfl⟩ := List.mem_map.mp hf
    exact Json.plain_present _

theorem plain_shape (f : Feature) : Json.Plain (shape f) := by
  refine .object fun field hfield => ?_
  simp only [List.mem_cons, List.not_mem_nil, or_false] at hfield
  rcases hfield with rfl | rfl | rfl | rfl | rfl | rfl | rfl
  · exact Json.plain_strings _
  · exact .string _
  · exact plain_constructs _
  all_goals exact .string _

/-- Two features are digested as the same text exactly when all that shapes them is the same. -/
theorem compact_shape_eq_iff {f g : Feature} :
    (shape f).compact = (shape g).compact ↔ SameShape f g :=
  ⟨fun h => sameShape_of_shape_eq (Json.compact_injective (plain_shape f) (plain_shape g) h),
    fun h => congrArg Json.compact h.shape_eq⟩

/-! ## Keys -/

theorem toList_cacheKey (l : Language) (t : Template) (text : String) (f : Feature) :
    (cacheKey l t text f).toList = l.name.toList ++ ':' :: (t.name.toList ++
      ':' :: ((Blake3.hex text).toList ++ ':' :: (contentHash f).toList)) := by
  simp [cacheKey]

/-- A key gives back the names and digests that it joins. -/
theorem cacheKey_inj {l l' : Language} {t t' : Template} {text text' : String} {f f' : Feature}
    (h : cacheKey l t text f = cacheKey l' t' text' f') :
    l = l' ∧ t = t' ∧ Blake3.hex text = Blake3.hex text' ∧ contentHash f = contentHash f' := by
  have hlist := congrArg String.toList h
  rw [toList_cacheKey, toList_cacheKey] at hlist
  obtain ⟨hl, hlist⟩ :=
    Lists.append_cons_inj l.colon_notMem_name l'.colon_notMem_name hlist
  obtain ⟨ht, hlist⟩ :=
    Lists.append_cons_inj t.colon_notMem_name t'.colon_notMem_name hlist
  obtain ⟨htext, hf⟩ := Lists.append_cons_inj (Blake3.colon_notMem_hex text)
    (Blake3.colon_notMem_hex text') hlist
  exact ⟨Language.name_injective (String.toList_inj.mp hl),
    Template.name_injective (String.toList_inj.mp ht), String.toList_inj.mp htext,
    String.toList_inj.mp hf⟩

/-- Nothing but the shape of a feature counts for its key. -/
theorem cacheKey_congr (l : Language) (t : Template) (text : String) {f f' : Feature}
    (h : SameShape f f') : cacheKey l t text f = cacheKey l t text f' := by
  rw [cacheKey, cacheKey, contentHash, contentHash, h.shape_eq]

/-- Where the digests tell apart what was digested, equal keys come from equal inputs. -/
theorem eq_of_cacheKey_eq {l l' : Language} {t t' : Template} {text text' : String}
    {f f' : Feature} (htext : Blake3.NoCollision [text, text'])
    (hshape : Blake3.NoCollision [(shape f).compact, (shape f').compact])
    (h : cacheKey l t text f = cacheKey l' t' text' f') :
    l = l' ∧ t = t' ∧ text = text' ∧ SameShape f f' := by
  obtain ⟨hl, ht, hdigest, hcontent⟩ := cacheKey_inj h
  have htexts : text = text' := htext _ (by simp) _ (by simp) hdigest
  have hcompact : (shape f).compact = (shape f').compact :=
    hshape _ (by simp) _ (by simp) hcontent
  exact ⟨hl, ht, htexts, compact_shape_eq_iff.mp hcompact⟩

/-- **A key identifies exactly what shapes the query.** Two keys are equal if and only if the
languages, the templates, the texts of the templates and the shaping fields of the features are;
what describes a feature and whether it is an entry point do not count. -/
theorem cacheKey_eq_iff {l l' : Language} {t t' : Template} {text text' : String}
    {f f' : Feature} (htext : Blake3.NoCollision [text, text'])
    (hshape : Blake3.NoCollision [(shape f).compact, (shape f').compact]) :
    cacheKey l t text f = cacheKey l' t' text' f' ↔
      l = l' ∧ t = t' ∧ text = text' ∧ SameShape f f' := by
  constructor
  · exact eq_of_cacheKey_eq htext hshape
  · rintro ⟨rfl, rfl, rfl, h⟩
    exact cacheKey_congr l t text h

theorem cacheKey_ne_of_otherText :
    let f : Feature :=
      { key := "route", library := "fastapi", paths := ["fastapi.FastAPI"], target := .function
        concept := .decorator, strategy := .variableBound, constructs := some .empty
        description := "", startpoint := true }
    let g : Feature := { f with description := "A route.", startpoint := false }
    Blake3.NoCollision ["(decorator)", "(call)"] ∧
      Blake3.NoCollision [(shape f).compact, (shape g).compact] ∧
      cacheKey .python .decoratorFunction "(decorator)" f ≠
        cacheKey .python .decoratorFunction "(call)" g := by
  intro f g
  have htext : Blake3.NoCollision ["(decorator)", "(call)"] :=
    Blake3.noCollision_of_nodup (by decide +kernel)
  have hshape : Blake3.NoCollision [(shape f).compact, (shape g).compact] := by
    have hsame : shape f = shape g := rfl
    simp [Blake3.NoCollision, hsame]
  refine ⟨htext, hshape, fun h => ?_⟩
  obtain ⟨-, -, hne, -⟩ := (cacheKey_eq_iff htext hshape).mp h
  exact absurd hne (by decide)

end FeatureQuery

end SourceFacts
