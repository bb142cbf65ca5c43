import SourceFacts.Detection.Json
import SourceFacts.Feature.Json
import SourceFacts.Outline.Json
import SourceFacts.Proofs.Json.Values

/-!
# Records are read back

Features, files of features, detections and outlines are read as what they were written from
(`records_roundTrip`), also where they were themselves read from another form of text: with fields
left out, under other names, or as a list.

For each type there are three facts. What is written of a well-formed value is read as the value
(`ofJson_toJson`). Whatever is read is well-formed (`wellFormed_of_ofJson`): numbers have 32 bits
and tables are in order. And what is written is read from its text (`plain_toJson`).
-/

namespace SourceFacts

open Json (Misfit Plain Record asString asNat32 asBool asList asOption asTable asRecord gather
  bind_eq_ok_iff)

/-! ## Features -/

theorem TargetLevel.ofJson_toJson (t : TargetLevel) : TargetLevel.ofJson t.toJson = .ok t := by
  cases t <;> rfl

theorem Concept.ofJson_toJson (c : Concept) : Concept.ofJson c.toJson = .ok c := by
  cases c <;> rfl

theorem LocatorStrategy.ofJson_toJson (s : LocatorStrategy) :
    LocatorStrategy.ofJson s.toJson = .ok s := by
  cases s <;> rfl

theorem ConstructQuery.ofJson_toJson (q : ConstructQuery) :
    ConstructQuery.ofJson q.toJson = .ok q := by
  obtain ⟨_ | m, _ | d, _ | c, _ | s⟩ := q <;> rfl

theorem ConstructQuery.plain_toJson (q : ConstructQuery) : Plain q.toJson := Json.plain_present _

namespace Feature

/-- What narrows a feature down stands in order of the families. -/
def WellFormed (f : Feature) : Prop := ∀ t, f.constructs = some t → t.Ordered

theorem asRecord_toJson (f : Feature) :
    asRecord [["feature_key"], ["library"], ["absolute_paths"], ["target_level"],
      ["concept"], ["locator_strategy"], ["construct_query"], ["description"], ["startpoint"]]
      f.toJson =
    .ok ⟨[("feature_key", some (.string f.key)), ("library", some (.string f.library)),
      ("absolute_paths", some (.strings f.paths)), ("target_level", some f.target.toJson),
      ("concept", some f.concept.toJson), ("locator_strategy", some f.strategy.toJson),
      ("construct_query", f.constructs.map (constructsJson ConstructQuery.toJson)),
      ("description", some (.string f.description)),
      ("startpoint", some (.bool f.startpoint))], false⟩ := by
  unfold toJson
  cases f.constructs <;> rfl

theorem ofJson_toJson {f : Feature} (h : f.WellFormed) : ofJson f.toJson = .ok f := by
  have hconstructs : ∀ r : Record,
      r.value? "construct_query" = f.constructs.map (constructsJson ConstructQuery.toJson) →
      r.withDefault "construct_query" none (asOption (asTable ConstructQuery.ofJson)) =
        .ok f.constructs := by
    intro r hr
    cases hf : f.constructs with
    | none => rw [Record.withDefault, hr, hf]; rfl
    | some t =>
      have htable := Json.asTable_object (f := ConstructQuery.ofJson) (h t hf)
        fun e _ => ConstructQuery.ofJson_toJson e.2
      rw [Record.withDefault, hr, hf]
      show Option.some <$> asTable ConstructQuery.ofJson (constructsJson _ t) = .ok (some t)
      rw [constructsJson, htable]
      rfl
  simp only [ofJson, asRecord_toJson, bind_eq_ok_iff]
  exact ⟨_, rfl, f.key, rfl, f.library, rfl, f.paths, Json.asList_strings _, f.target,
    f.target.ofJson_toJson, f.concept, f.concept.ofJson_toJson, f.strategy,
    f.strategy.ofJson_toJson, f.constructs, hconstructs _ rfl, f.description, rfl,
    f.startpoint, rfl, rfl⟩

theorem wellFormed_of_ofJson {j : Json} {f : Feature} (h : ofJson j = .ok f) : f.WellFormed := by
  simp only [ofJson, bind_eq_ok_iff] at h
  obtain ⟨r, -, key, -, library, -, paths, -, target, -, concept, -, strategy, -, constructs,
    hconstructs, description, -, startpoint, -, hf⟩ := h
  cases hf
  rintro t rfl
  rcases Record.eq_or_exists_of_withDefault hconstructs with hnone | ⟨j', hj'⟩
  · cases hnone
  · exact Json.ordered_of_asTable (Json.asOption_eq_some hj')

theorem plain_toJson (f : Feature) : Plain f.toJson := by
  refine .object fun field hfield => ?_
  simp only [List.mem_append, List.mem_cons, List.not_mem_nil, or_false, Option.mem_toList,
    Option.map_eq_some_iff] at hfield
  rcases hfield with ((rfl | rfl | rfl | rfl | rfl | rfl) | ⟨t, -, rfl⟩) | rfl | rfl
  · exact .string _
  · exact .string _
  · exact Json.plain_strings _
  · exact .string _
  · exact .string _
  · exact .string _
  · exact Json.plain_entries ConstructQuery.plain_toJson t
  · exact .string _
  · exact .bool _

end Feature

namespace CatalogFile

/-- The version of a file has 32 bits, and its features are well-formed. -/
structure WellFormed (c : CatalogFile) : Prop where
  version : c.version < UInt32.size
  features : ∀ f ∈ c.features, f.WellFormed

theorem ofJson_toJson {c : CatalogFile} (h : c.WellFormed) : ofJson c.toJson = .ok c := by
  have hrecord : asRecord [["version"], ["language"], ["library"], ["features"]] c.toJson =
      .ok ⟨[("version", some (.nat c.version)), ("language", some (.string c.language)),
        ("library", some (.string c.library)),
        ("features", some (.list (c.features.map Feature.toJson)))], false⟩ := rfl
  have hfeatures : asList Feature.ofJson (.list (c.features.map Feature.toJson)) =
      .ok c.features :=
    Json.asList_list fun f hf => Feature.ofJson_toJson (h.features f hf)
  simp only [ofJson, hrecord, bind_eq_ok_iff]
  exact ⟨_, rfl, c.version, (Record.withDefault_of_value? rfl 1).trans (Json.asNat32_nat h.version),
    c.language, rfl, c.library, rfl, c.features, hfeatures, rfl⟩

theorem wellFormed_of_ofJson {j : Json} {c : CatalogFile} (h : ofJson j = .ok c) :
    c.WellFormed := by
  simp only [ofJson, bind_eq_ok_iff] at h
  obtain ⟨r, -, version, hversion, language, -, library, -, features, hfeatures, hc⟩ := h
  cases hc
  constructor
  · rcases Record.eq_or_exists_of_withDefault hversion with rfl | ⟨j', hj'⟩
    · show 1 < UInt32.size
      decide
    · exact Json.lt_of_asNat32 hj'
  · rcases Record.eq_or_exists_of_withDefault hfeatures with rfl | ⟨j', hj'⟩
    · simp
    · intro f hf
      obtain ⟨j'', hj''⟩ := Json.exists_of_mem_asList hj' f hf
      exact Feature.wellFormed_of_ofJson hj''

theorem plain_toJson (c : CatalogFile) : Plain c.toJson := by
  refine .object fun field hfield => ?_
  simp only [List.mem_cons, List.not_mem_nil, or_false] at hfield
  rcases hfield with rfl | rfl | rfl | rfl
  · exact .int _
  · exact .string _
  · exact .string _
  · exact Json.plain_list Feature.plain_toJson _

end CatalogFile

/-! ## Detections -/

namespace DetectionKind

theorem ofFields_jsonFields (k : DetectionKind) : ofFields k.jsonFields = .ok k := by
  cases k with
  | decorator boundObject name receivers =>
    have hreceivers : asList asString (.strings receivers) = .ok receivers :=
      Json.asList_strings receivers
    cases boundObject with
    | none =>
      show (do return decorator none name (← asList asString (.strings receivers))) = _
      rw [hreceivers]
      rfl
    | some object =>
      show (do return decorator (some object) name (← asList asString (.strings receivers))) = _
      rw [hreceivers]
      rfl
  | call callee arguments => rfl
  | inheritance subclass superclass => rfl

theorem plain_jsonFields (k : DetectionKind) : ∀ field ∈ k.jsonFields, Plain field.2 := by
  intro field hfield
  cases k with
  | decorator boundObject name receivers =>
    simp only [jsonFields, List.mem_cons, List.not_mem_nil, or_false] at hfield
    rcases hfield with rfl | rfl | rfl | rfl
    · exact .string _
    · exact Json.plain_ofOption_string _
    · exact .string _
    · exact Json.plain_strings _
  | call callee arguments =>
    simp only [jsonFields, List.mem_cons, List.not_mem_nil, or_false] at hfield
    rcases hfield with rfl | rfl | rfl <;> exact .string _
  | inheritance subclass superclass =>
    simp only [jsonFields, List.mem_cons, List.not_mem_nil, or_false] at hfield
    rcases hfield with rfl | rfl | rfl <;> exact .string _

end DetectionKind

namespace Detection

/-- The lines of a detection have 32 bits, and its metadata stand in order. -/
structure WellFormed (d : Detection) : Prop where
  startLine : d.startLine < UInt32.size
  endLine : d.endLine < UInt32.size
  metadata : d.metadata.Ordered

/-- The fields that are not part of the form. -/
def ownJson (d : Detection) : List (String × Json) :=
  [("feature_key", .string d.featureKey), ("library", .string d.library),
    ("match_text", .string d.matchText), ("start_line", .nat d.startLine),
    ("end_line", .nat d.endLine)] ++
    (if d.metadata.isEmpty then []
      else [("metadata", .object (d.metadata.entries.map fun (k, v) => (k, .string v)))])

theorem toJson_eq (d : Detection) : d.toJson = .object (d.ownJson ++ d.kind.jsonFields) := rfl

theorem gather_ownJson (d : Detection) :
    gather (ownFields.map fun n => [n]) (d.ownJson ++ d.kind.jsonFields) =
    .ok [("feature_key", some (.string d.featureKey)), ("library", some (.string d.library)),
      ("match_text", some (.string d.matchText)), ("start_line", some (.nat d.startLine)),
      ("end_line", some (.nat d.endLine)), ("metadata", if d.metadata.isEmpty then none
        else some (.object (d.metadata.entries.map fun (k, v) => (k, .string v))))] := by
  unfold ownJson
  cases d.metadata.isEmpty <;> cases d.kind <;> rfl

theorem filter_ownJson (d : Detection) :
    ((d.ownJson ++ d.kind.jsonFields).filter fun (k, _) => !ownFields.contains k) =
      d.kind.jsonFields := by
  unfold ownJson
  cases d.metadata.isEmpty <;> cases d.kind <;> rfl

theorem ofJson_toJson {d : Detection} (h : d.WellFormed) : ofJson d.toJson = .ok d := by
  have hsound : Json.fieldsAreSound (nestLimit - 1) d.kind.jsonFields = true := by
    cases d.kind with
    | decorator boundObject name receivers =>
      have hreceivers := Json.areSound_strings 125 receivers
      cases boundObject <;>
        simpa [DetectionKind.jsonFields, nestLimit, Json.fieldsAreSound, Json.isSound,
          Json.ofOption, Json.strings] using hreceivers
    | call callee arguments => rfl
    | inheritance subclass superclass => rfl
  have hmetadata : ∀ r : Record,
      r.value? "metadata" = (if d.metadata.isEmpty then none
        else some (.object (d.metadata.entries.map fun (k, v) => (k, .string v)))) →
      r.withDefault "metadata" .empty (asTable asString) = .ok d.metadata := by
    intro r hr
    by_cases hempty : d.metadata.isEmpty
    · rw [if_pos hempty] at hr
      rw [Record.withDefault, hr]
      exact congrArg (Except.ok ∘ Table.mk) (List.isEmpty_iff.mp hempty).symm
    · rw [if_neg hempty] at hr
      rw [Record.withDefault_of_value? hr]
      exact Json.asTable_object h.metadata fun e _ => rfl
  simp only [toJson_eq, ofJson, gather_ownJson, filter_ownJson, hsound, bind_eq_ok_iff]
  refine ⟨_, rfl, ?_⟩
  simp only [Bool.not_true, Bool.false_eq_true, if_false, bind_eq_ok_iff]
  exact ⟨d.featureKey, rfl, d.library, rfl, d.matchText, rfl, d.startLine,
    (Record.required_of_value? rfl).trans (Json.asNat32_nat h.startLine), d.endLine,
    (Record.required_of_value? rfl).trans (Json.asNat32_nat h.endLine), d.metadata,
    hmetadata _ rfl, d.kind, d.kind.ofFields_jsonFields, rfl⟩

theorem wellFormed_of_ofJson {j : Json} {d : Detection} (h : ofJson j = .ok d) :
    d.WellFormed := by
  unfold ofJson at h
  split at h
  · obtain ⟨fields, -, h⟩ := bind_eq_ok_iff.mp h
    dsimp only at h
    split at h
    · cases h
    · simp only [bind_eq_ok_iff] at h
      obtain ⟨key, -, library, -, text, -, first, hfirst, last, hlast, metadata, hmetadata,
        kind, -, hd⟩ := h
      cases hd
      obtain ⟨j₁, hj₁⟩ := Record.exists_of_required hfirst
      obtain ⟨j₂, hj₂⟩ := Record.exists_of_required hlast
      refine ⟨Json.lt_of_asNat32 hj₁, Json.lt_of_asNat32 hj₂, ?_⟩
      rcases Record.eq_or_exists_of_withDefault hmetadata with rfl | ⟨j₃, hj₃⟩
      · exact Table.ordered_empty
      · exact Json.ordered_of_asTable hj₃
  · cases h

theorem plain_toJson (d : Detection) : Plain d.toJson := by
  refine .object fun field hfield => ?_
  rw [List.mem_append, List.mem_append] at hfield
  rcases hfield with (hfield | hfield) | hfield
  · simp only [List.mem_cons, List.not_mem_nil, or_false] at hfield
    rcases hfield with rfl | rfl | rfl | rfl | rfl
    all_goals first | exact .string _ | exact .int _
  · split at hfield
    · cases hfield
    · obtain rfl := List.mem_singleton.mp hfield
      exact Json.plain_entries .string d.metadata
  · exact d.kind.plain_jsonFields field hfield

end Detection

/-! ## Outlines -/

namespace CallRef

theorem ofJson_toJson {c : CallRef} (h : c.line < UInt32.size) : ofJson c.toJson = .ok c := by
  have hrecord : asRecord [["receiver"], ["name"], ["line"]] c.toJson =
      .ok ⟨[("receiver", some (.ofOption .string c.receiver)), ("name", some (.string c.name)),
        ("line", some (.nat c.line))], false⟩ := rfl
  simp only [ofJson, hrecord, bind_eq_ok_iff]
  exact ⟨_, rfl, c.receiver,
    (Record.optional_of_value? rfl).trans (Json.asOption_ofOption_string c.receiver), c.name, rfl,
    c.line, (Record.required_of_value? rfl).trans (Json.asNat32_nat h), rfl⟩

theorem line_lt_of_ofJson {j : Json} {c : CallRef} (h : ofJson j = .ok c) :
    c.line < UInt32.size := by
  simp only [ofJson, bind_eq_ok_iff] at h
  obtain ⟨r, -, receiver, -, name, -, line, hline, hc⟩ := h
  cases hc
  obtain ⟨j', hj'⟩ := Record.exists_of_required hline
  exact Json.lt_of_asNat32 hj'

theorem plain_toJson (c : CallRef) : Plain c.toJson := by
  refine .object fun field hfield => ?_
  simp only [List.mem_cons, List.not_mem_nil, or_false] at hfield
  rcases hfield with rfl | rfl | rfl
  · exact Json.plain_ofOption_string _
  · exact .string _
  · exact .int _

end CallRef

namespace FunctionOutline

/-- The lines of a function and of its calls have 32 bits. -/
structure WellFormed (f : FunctionOutline) : Prop where
  startLine : f.startLine < UInt32.size
  endLine : f.endLine < UInt32.size
  calls : ∀ c ∈ f.calls, c.line < UInt32.size

theorem ofJson_toJson {f : FunctionOutline} (h : f.WellFormed) : ofJson f.toJson = .ok f := by
  have hrecord : asRecord [["name"], ["qualified_name"], ["parent_class"], ["decorators"],
      ["calls"], ["is_async"], ["start_line"], ["end_line"]] f.toJson =
      .ok ⟨[("name", some (.string f.name)), ("qualified_name", some (.string f.qualifiedName)),
        ("parent_class", some (.ofOption .string f.parentClass)),
        ("decorators", some (.strings f.decorators)),
        ("calls", some (.list (f.calls.map CallRef.toJson))), ("is_async", some (.bool f.isAsync)),
        ("start_line", some (.nat f.startLine)), ("end_line", some (.nat f.endLine))],
        false⟩ := rfl
  have hcalls : asList CallRef.ofJson (.list (f.calls.map CallRef.toJson)) = .ok f.calls :=
    Json.asList_list fun c hc => CallRef.ofJson_toJson (h.calls c hc)
  simp only [ofJson, hrecord, bind_eq_ok_iff]
  exact ⟨_, rfl, f.name, rfl, f.qualifiedName, rfl, f.parentClass,
    (Record.optional_of_value? rfl).trans (Json.asOption_ofOption_string f.parentClass),
    f.decorators, Json.asList_strings _, f.calls, hcalls, f.isAsync, rfl, f.startLine,
    (Record.required_of_value? rfl).trans (Json.asNat32_nat h.startLine), f.endLine,
    (Record.required_of_value? rfl).trans (Json.asNat32_nat h.endLine), rfl⟩

theorem wellFormed_of_ofJson {j : Json} {f : FunctionOutline} (h : ofJson j = .ok f) :
    f.WellFormed := by
  simp only [ofJson, bind_eq_ok_iff] at h
  obtain ⟨r, -, name, -, qualified, -, parent, -, decorators, -, calls, hcalls, isAsync, -,
    first, hfirst, last, hlast, hf⟩ := h
  cases hf
  obtain ⟨j₁, hj₁⟩ := Record.exists_of_required hcalls
  obtain ⟨j₂, hj₂⟩ := Record.exists_of_required hfirst
  obtain ⟨j₃, hj₃⟩ := Record.exists_of_required hlast
  refine ⟨Json.lt_of_asNat32 hj₂, Json.lt_of_asNat32 hj₃, fun c hc => ?_⟩
  obtain ⟨j₄, hj₄⟩ := Json.exists_of_mem_asList hj₁ c hc
  exact CallRef.line_lt_of_ofJson hj₄

theorem plain_toJson (f : FunctionOutline) : Plain f.toJson := by
  refine .object fun field hfield => ?_
  simp only [List.mem_cons, List.not_mem_nil, or_false] at hfield
  rcases hfield with rfl | rfl | rfl | rfl | rfl | rfl | rfl | rfl
  · exact .string _
  · exact .string _
  · exact Json.plain_ofOption_string _
  · exact Json.plain_strings _
  · exact Json.plain_list CallRef.plain_toJson _
  · exact .bool _
  · exact .int _
  · exact .int _

end FunctionOutline

namespace ClassOutline

/-- The lines of a class and of its methods have 32 bits. -/
structure WellFormed (c : ClassOutline) : Prop where
  startLine : c.startLine < UInt32.size
  endLine : c.endLine < UInt32.size
  methods : ∀ f ∈ c.methods, f.WellFormed

theorem ofJson_toJson {c : ClassOutline} (h : c.WellFormed) : ofJson c.toJson = .ok c := by
  have hrecord : asRecord [["name"], ["bases"], ["decorators"], ["start_line"], ["end_line"],
      ["methods"]] c.toJson =
      .ok ⟨[("name", some (.string c.name)), ("bases", some (.strings c.bases)),
        ("decorators", some (.strings c.decorators)), ("start_line", some (.nat c.startLine)),
        ("end_line", some (.nat c.endLine)),
        ("methods", some (.list (c.methods.map FunctionOutline.toJson)))], false⟩ := rfl
  have hmethods : asList FunctionOutline.ofJson (.list (c.methods.map FunctionOutline.toJson)) =
      .ok c.methods :=
    Json.asList_list fun f hf => FunctionOutline.ofJson_toJson (h.methods f hf)
  simp only [ofJson, hrecord, bind_eq_ok_iff]
  exact ⟨_, rfl, c.name, rfl, c.bases, Json.asList_strings _, c.decorators,
    Json.asList_strings _, c.startLine,
    (Record.required_of_value? rfl).trans (Json.asNat32_nat h.startLine), c.endLine,
    (Record.required_of_value? rfl).trans (Json.asNat32_nat h.endLine), c.methods, hmethods, rfl⟩

theorem wellFormed_of_ofJson {j : Json} {c : ClassOutline} (h : ofJson j = .ok c) :
    c.WellFormed := by
  simp only [ofJson, bind_eq_ok_iff] at h
  obtain ⟨r, -, name, -, bases, -, decorators, -, first, hfirst, last, hlast, methods, hmethods,
    hc⟩ := h
  cases hc
  obtain ⟨j₁, hj₁⟩ := Record.exists_of_required hmethods
  obtain ⟨j₂, hj₂⟩ := Record.exists_of_required hfirst
  obtain ⟨j₃, hj₃⟩ := Record.exists_of_required hlast
  refine ⟨Json.lt_of_asNat32 hj₂, Json.lt_of_asNat32 hj₃, fun f hf => ?_⟩
  obtain ⟨j₄, hj₄⟩ := Json.exists_of_mem_asList hj₁ f hf
  exact FunctionOutline.wellFormed_of_ofJson hj₄

theorem plain_toJson (c : ClassOutline) : Plain c.toJson := by
  refine .object fun field hfield => ?_
  simp only [List.mem_cons, List.not_mem_nil, or_false] at hfield
  rcases hfield with rfl | rfl | rfl | rfl | rfl | rfl
  · exact .string _
  · exact Json.plain_strings _
  · exact Json.plain_strings _
  · exact .int _
  · exact .int _
  · exact Json.plain_list FunctionOutline.plain_toJson _

end ClassOutline

namespace Outline

/-- The lines of an outline have 32 bits. -/
structure WellFormed (o : Outline) : Prop where
  classes : ∀ c ∈ o.classes, c.WellFormed
  functions : ∀ f ∈ o.functions, f.WellFormed

theorem ofJson_toJson {o : Outline} (h : o.WellFormed) : ofJson o.toJson = .ok o := by
  have hrecord : asRecord [["classes"], ["functions"]] o.toJson =
      .ok ⟨[("classes", some (.list (o.classes.map ClassOutline.toJson))),
        ("functions", some (.list (o.functions.map FunctionOutline.toJson)))], false⟩ := rfl
  have hclasses : asList ClassOutline.ofJson (.list (o.classes.map ClassOutline.toJson)) =
      .ok o.classes :=
    Json.asList_list fun c hc => ClassOutline.ofJson_toJson (h.classes c hc)
  have hfunctions : asList FunctionOutline.ofJson
      (.list (o.functions.map FunctionOutline.toJson)) = .ok o.functions :=
    Json.asList_list fun f hf => FunctionOutline.ofJson_toJson (h.functions f hf)
  simp only [ofJson, hrecord, bind_eq_ok_iff]
  exact ⟨_, rfl, o.classes, hclasses, o.functions, hfunctions, rfl⟩

theorem wellFormed_of_ofJson {j : Json} {o : Outline} (h : ofJson j = .ok o) : o.WellFormed := by
  simp only [ofJson, bind_eq_ok_iff] at h
  obtain ⟨r, -, classes, hclasses, functions, hfunctions, ho⟩ := h
  cases ho
  obtain ⟨j₁, hj₁⟩ := Record.exists_of_required hclasses
  obtain ⟨j₂, hj₂⟩ := Record.exists_of_required hfunctions
  refine ⟨fun c hc => ?_, fun f hf => ?_⟩
  · obtain ⟨j₃, hj₃⟩ := Json.exists_of_mem_asList hj₁ c hc
    exact ClassOutline.wellFormed_of_ofJson hj₃
  · obtain ⟨j₃, hj₃⟩ := Json.exists_of_mem_asList hj₂ f hf
    exact FunctionOutline.wellFormed_of_ofJson hj₃

theorem plain_toJson (o : Outline) : Plain o.toJson := by
  refine .object fun field hfield => ?_
  simp only [List.mem_cons, List.not_mem_nil, or_false] at hfield
  rcases hfield with rfl | rfl
  · exact Json.plain_list ClassOutline.plain_toJson _
  · exact Json.plain_list FunctionOutline.plain_toJson _

end Outline

/-! ## Texts -/

/-- What is written of the values of a type is read back, and tells them apart. The well-formed
values are exactly those that some text is read as, in whatever form it gives them. -/
structure Json.RoundTrips {α : Type} (encode : α → Json) (decode : Json → Except Misfit α)
    (WellFormed : α → Prop) : Prop where
  reads : ∀ a, WellFormed a → Json.decode decode (encode a).compact = .ok a
  injective : ∀ a b, WellFormed a → WellFormed b → (encode a).compact = (encode b).compact → a = b
  reads_again : ∀ text a, Json.decode decode text = .ok a →
    Json.decode decode (encode a).compact = .ok a
  wellFormed_iff : ∀ a, WellFormed a ↔ ∃ text, Json.decode decode text = .ok a

theorem Json.roundTrips {α : Type} {encode : α → Json} {decode : Json → Except Misfit α}
    {WellFormed : α → Prop} (hplain : ∀ a, Plain (encode a))
    (hreads : ∀ a, WellFormed a → decode (encode a) = .ok a)
    (hwell : ∀ j a, decode j = .ok a → WellFormed a) :
    RoundTrips encode decode WellFormed := by
  have htext : ∀ a, WellFormed a → Json.decode decode (encode a).compact = .ok a := by
    intro a ha
    rw [Json.decode, Json.ofText?_compact (hplain a)]
    exact hreads a ha
  have hfound : ∀ text a, Json.decode decode text = .ok a → WellFormed a := by
    intro text a ha
    unfold Json.decode at ha
    split at ha
    · exact hwell _ a ha
    · cases ha
  constructor
  case reads => exact htext
  case injective =>
    intro a b ha hb hsame
    have hread := htext a ha
    rw [hsame, htext b hb] at hread
    exact (Except.ok.inj hread).symm
  case reads_again => exact fun text a ha => htext a (hfound text a ha)
  case wellFormed_iff =>
    exact fun a => ⟨fun ha => ⟨_, htext a ha⟩, fun ⟨text, ha⟩ => hfound text a ha⟩

/-- **Records are read back as they were.** This holds of features, files of features, detections
and outlines: what is written of a value is read as that value, no other value is written in the
same way, and whatever form of text a value was read from, writing and reading it again gives the
same value. -/
theorem records_roundTrip :
    Json.RoundTrips Feature.toJson Feature.ofJson Feature.WellFormed ∧
      Json.RoundTrips CatalogFile.toJson CatalogFile.ofJson CatalogFile.WellFormed ∧
      Json.RoundTrips Detection.toJson Detection.ofJson Detection.WellFormed ∧
      Json.RoundTrips Outline.toJson Outline.ofJson Outline.WellFormed := by
  refine ⟨?_, ?_, ?_, ?_⟩
  · exact Json.roundTrips Feature.plain_toJson (fun _ => Feature.ofJson_toJson)
      fun _ _ => Feature.wellFormed_of_ofJson
  · exact Json.roundTrips CatalogFile.plain_toJson (fun _ => CatalogFile.ofJson_toJson)
      fun _ _ => CatalogFile.wellFormed_of_ofJson
  · exact Json.roundTrips Detection.plain_toJson (fun _ => Detection.ofJson_toJson)
      fun _ _ => Detection.wellFormed_of_ofJson
  · exact Json.roundTrips Outline.plain_toJson (fun _ => Outline.ofJson_toJson)
      fun _ _ => Outline.wellFormed_of_ofJson

/-- A feature given as a list, with its concept under another name and defaults left out. -/
example : Feature.ofJson (.list [.string "app", .string "", .strings ["fastapi.FastAPI"],
      .object [("class", .null)], .string "decorator"]) =
    .ok { key := "app", library := "", paths := ["fastapi.FastAPI"], target := .type
          concept := .decorator, strategy := .direct, constructs := none, description := ""
          startpoint := false } := by
  rfl

end SourceFacts
