import Mathlib.Data.List.TakeWhile
import SourceFacts.Proofs.Detector.Justification
import SourceFacts.Proofs.FeatureQuery.Reading
import SourceFacts.Proofs.Lists

/-!
# Queries that require a method

A predicate passes where its capture is absent. So a query into which a predicate on the method is
filled has to require the capture besides, and then no match without it is accepted. Whether a
query does so is told by looking for one spelling of the placeholder anywhere in the template,
while placeholders are filled whatever blanks stand in them.

In a template that can be filled, that spelling stands where it is read as a placeholder, and
nowhere else (`infix_iff_placeholder_mem`). So a method that is required is also filled in; but of
those filled in only the ones are required whose placeholder is written without blanks somewhere
(`requiresMethod_iff`). With blanks, the predicate on the method is filled in and its capture is
not required (`requiresMethod_blanks`).
-/

namespace SourceFacts

namespace Text

theorem mem_trimFront {c : Char} {s : List Char} (h : c ∈ s) (hc : isBlank c = false) :
    c ∈ trimFront s := by
  rw [← List.takeWhile_append_dropWhile (p := isBlank) (l := s)] at h
  rcases List.mem_append.mp h with hfront | hrest
  · exact absurd (List.mem_takeWhile_imp hfront) (by simp [hc])
  · exact hrest

/-- Trimming takes nothing but blanks. -/
theorem mem_trim {c : Char} {s : List Char} (h : c ∈ s) (hc : isBlank c = false) : c ∈ trim s := by
  have hfront := List.mem_reverse.mpr (mem_trimFront h hc)
  exact List.mem_reverse.mpr (mem_trimFront hfront hc)

end Text

namespace FeatureQuery

open Text (FirstAt)

variable {s before more rest : List Char} {parts : List Part}

/-! ## Where a placeholder stands -/

theorem brace_notMem_of_nameOf {inside : List Char} {slot : Slot}
    (h : nameOf inside = slot.placeholder) : '\x7b' ∉ inside := by
  intro hbrace
  have hname : '\x7b' ∈ slot.placeholder.toList := by
    rw [← h, nameOf, Text.trimmed, String.toList_ofList, String.toList_ofList]
    exact Text.mem_trim hbrace (by decide)
  revert hname
  cases slot <;> decide

theorem infix_of_placeholder_mem {inside : List Char} (h : IsReading s parts)
    (hmem : .placeholder inside ∈ parts) : opening ++ (inside ++ closing) <:+: s := by
  induction h with
  | literal _ => simp at hmem
  | unterminated _ _ => simp at hmem
  | @placeholder s before more first rest _ hopen hclose _ ih =>
    rw [hopen.split, hclose.split]
    simp only [List.mem_cons, reduceCtorEq, Part.placeholder.injEq, false_or] at hmem
    rcases hmem with rfl | hmem
    · exact ⟨before, rest, by simp⟩
    · obtain ⟨front, back, hrest⟩ := ih hmem
      exact ⟨before ++ (opening ++ (first ++ (closing ++ front))), back, by simp [← hrest]⟩

/-- Where a placeholder is spelled in a text, it is the first that is read, or it stands in what
follows the first. -/
theorem eq_or_later {inside name front back : List Char} (hopen : FirstAt opening s before more)
    (hclose : FirstAt closing more inside rest) (hinside : '\x7b' ∉ inside)
    (hname : '\x7d' ∉ name) (hs : s = front ++ (opening ++ (name ++ (closing ++ back)))) :
    inside = name ∨ ∃ front', rest = front' ++ (opening ++ (name ++ (closing ++ back))) := by
  obtain ⟨between, rfl⟩ : ∃ between, front = before ++ between := by
    have hbefore : before <+: s := ⟨_, hopen.split.symm⟩
    have hfront : front <+: s := ⟨_, hs.symm⟩
    obtain ⟨between, hbetween⟩ :=
      List.prefix_of_prefix_length_le hbefore hfront (hopen.first front _ hs)
    exact ⟨between, hbetween.symm⟩
  have hmore : opening ++ more = between ++ (opening ++ (name ++ (closing ++ back))) := by
    rw [hopen.split, List.append_assoc] at hs
    exact List.append_cancel_left hs
  cases between with
  | nil =>
    have hspelled : more = name ++ (closing ++ back) := List.append_cancel_left hmore
    have hfirst : FirstAt closing more name back := hspelled ▸ FirstAt.of_notMem hname ['\x7d'] back
    exact Or.inl (hclose.unique hfirst).1
  | cons a between =>
    -- No brace opens in what has been read of the first placeholder after its own first brace.
    have hblock : '\x7b' ∉ inside ++ closing := by simp [hinside, closing]
    have htail : '\x7b' :: ((inside ++ closing) ++ rest) =
        between ++ (opening ++ (name ++ (closing ++ back))) := by
      rw [List.append_assoc, ← hclose.split]
      exact (List.cons.inj hmore).2
    cases between with
    | nil =>
      have hbrace : (inside ++ closing) ++ rest =
          [] ++ '\x7b' :: (name ++ (closing ++ back)) := (List.cons.inj htail).2
      obtain ⟨_, hnil, -⟩ := Lists.exists_of_append_eq hblock hbrace
      simp [closing] at hnil
    | cons b between =>
      obtain ⟨front', -, hrest⟩ := Lists.exists_of_append_eq hblock (List.cons.inj htail).2
      exact Or.inr ⟨front', hrest⟩

theorem placeholder_mem_of_append {name front back : List Char} (h : IsReading s parts)
    (hsound : ∀ part ∈ parts, part.fault? = none) (hname : '\x7d' ∉ name)
    (hs : s = front ++ (opening ++ (name ++ (closing ++ back)))) :
    .placeholder name ∈ parts := by
  induction h generalizing front with
  | literal hnone => exact absurd ⟨front, name ++ (closing ++ back), by simp [hs]⟩ hnone
  | unterminated _ _ =>
    have hfault := hsound _ (List.mem_cons_of_mem _ List.mem_cons_self)
    cases hfault
  | @placeholder _ _ _ inside _ _ hopen hclose _ ih =>
    have hfault := hsound (.placeholder inside) (by simp)
    obtain ⟨slot, hslot⟩ : ∃ slot, Slot.ofPlaceholder? (nameOf inside) = some slot := by
      rw [← Option.ne_none_iff_exists']
      intro hnone
      simp [Part.fault?, hnone] at hfault
    have hinside := brace_notMem_of_nameOf (Slot.ofPlaceholder?_eq_some_iff.mp hslot).symm
    rcases eq_or_later hopen hclose hinside hname hs with rfl | ⟨front', hrest⟩
    · simp
    · have hlater := ih (fun part hpart => hsound part (by simp [hpart])) hrest
      exact List.mem_cons_of_mem _ (List.mem_cons_of_mem _ hlater)

/-- In a template that can be filled, a placeholder is read wherever it is spelled. -/
theorem infix_iff_placeholder_mem {name : List Char} (h : IsReading s parts)
    (hsound : ∀ part ∈ parts, part.fault? = none) (hname : '\x7d' ∉ name) :
    opening ++ (name ++ closing) <:+: s ↔ .placeholder name ∈ parts := by
  refine ⟨?_, infix_of_placeholder_mem h⟩
  rintro ⟨front, back, hs⟩
  have hsplit : s = front ++ (opening ++ (name ++ (closing ++ back))) := by simp [← hs]
  exact placeholder_mem_of_append h hsound hname hsplit

/-! ## What is filled in and what is required -/

/-- A predicate on the method is filled into a template that is read as the given parts. -/
def FillsMethod (constructs : Option ConstructQuery) (parts : List Part) : Prop :=
  (∃ regex, constructs.bind Slot.method.regex? = some regex) ∧
    ∃ inside, .placeholder inside ∈ parts ∧ nameOf inside = Slot.method.placeholder

theorem any_method_iff {constructs : Option ConstructQuery} :
    constructs.any (·.method.isSome) = true ↔
      ∃ regex, constructs.bind Slot.method.regex? = some regex := by
  cases constructs with
  | none => simp
  | some q => simp [Slot.regex?, Option.isSome_iff_exists]

theorem ofTemplate_eq_ok {l : Language} {t : Template} {text key : String} {f : Feature}
    {q : FeatureQuery} (h : ofTemplate l t text key f = .ok q) :
    let constructs := f.constructsFor l.family
    q.template = t ∧ render t text constructs = .ok q.text ∧
      q.requiresMethod =
        (Text.occursIn methodPlaceholder text && constructs.any (·.method.isSome)) := by
  simp only [ofTemplate, bind, Except.bind] at h
  split at h
  · cases h
  · rename_i hfilled
    split at h
    · cases h
    · cases h
      exact ⟨rfl, hfilled, rfl⟩

theorem requiresMethod_of_ofTemplate {l : Language} {t : Template} {text key : String}
    {f : Feature} {q : FeatureQuery} (h : ofTemplate l t text key f = .ok q)
    (hparts : IsReading text.toList parts) :
    let constructs := f.constructsFor l.family
    q.template = t ∧ q.text.toList = parts.flatMap (Part.filled constructs) ∧
      (q.requiresMethod = true ↔ FillsMethod constructs parts ∧
        .placeholder Slot.method.placeholder.toList ∈ parts) := by
  intro constructs
  obtain ⟨htemplate, hfilled, hrequires⟩ := ofTemplate_eq_ok h
  obtain ⟨hsound, htext⟩ := filled_of_render hparts hfilled
  have hspelling : methodPlaceholder.toList =
      opening ++ (Slot.method.placeholder.toList ++ closing) := by decide
  have hname : nameOf Slot.method.placeholder.toList = Slot.method.placeholder := by decide
  refine ⟨htemplate, htext, ?_⟩
  rw [hrequires, Bool.and_eq_true, Text.occursIn_iff, hspelling, any_method_iff,
    infix_iff_placeholder_mem hparts hsound (by decide)]
  constructor
  · rintro ⟨hmem, hregex⟩
    exact ⟨⟨hregex, _, hmem, hname⟩, hmem⟩
  · rintro ⟨⟨hregex, -⟩, hmem⟩
    exact ⟨hmem, hregex⟩

/-- **What is required has been filled in.** A query that is served for a feature, by a cache that
keeps the queries of earlier requests, requires the method if and only if a predicate on the method
is filled into its template and a placeholder of the method is written without blanks there. If it
does, no match is accepted that does not capture a method. -/
theorem requiresMethod_iff {r : FeatureRequest} {rs : List FeatureRequest} {c : QueryCache}
    {q : FeatureQuery} (hc : c.Keeps rs) (hrs : FeatureRequest.NoCollision rs) (hr : r ∈ rs)
    (hq : (r.serve c).1 = .ok q) :
    let constructs := r.feature.constructsFor r.language.family
    ∃ parts, IsReading (r.templates.text q.template).toList parts ∧
      q.text.toList = parts.flatMap (Part.filled constructs) ∧
      (q.requiresMethod = true ↔ FillsMethod constructs parts ∧
        .placeholder Slot.method.placeholder.toList ∈ parts) ∧
      (q.requiresMethod = true → ∀ p l m d, Detector.detection? p l q m = some d →
        (Detector.Hit.place? ⟨q.query, m⟩ "method").isSome) := by
  intro constructs
  have hcompiled : r.compiled = .ok q := (hc.serve hrs hr).1.symm.trans hq
  cases hselect : Template.select r.feature.concept r.feature.target with
  | error e =>
    rw [FeatureRequest.compiled, compile, hselect] at hcompiled
    cases hcompiled
  | ok t =>
    rw [FeatureRequest.compiled_of_template? (FeatureRequest.template?_eq_some_iff.mpr hselect)]
      at hcompiled
    obtain ⟨parts, hparts⟩ := exists_isReading (r.templates.text t).toList
    obtain ⟨rfl, htext, hrequires⟩ := requiresMethod_of_ofTemplate hcompiled hparts
    exact ⟨parts, hparts, htext, hrequires, fun hmethod p l m d hd =>
      (Detector.shows_detection? hd).1 hmethod⟩

/-- A request for calls of a method, under a template with the given text between the braces of the
placeholder. -/
def methodRequest (inside : String) : FeatureRequest where
  language := .python
  templates := { TemplateSet.builtin .python with
    callExpression := "((_) @method \x7b\x7b" ++ inside ++ "\x7d\x7d)" }
  feature :=
    { key := "get", library := "requests", paths := ["requests.get"], target := .function
      concept := .call, strategy := .direct
      constructs := some ⟨[("python", ⟨some "^get$", none, none, none⟩)]⟩
      description := "", startpoint := false }

theorem isReading_methodRequest {inside : String} (hinside : '\x7d' ∉ inside.toList) :
    IsReading ((methodRequest inside).templates.text .callExpression).toList
      [.literal "((_) @method ".toList, .placeholder inside.toList, .literal [')']] := by
  have htext : ((methodRequest inside).templates.text .callExpression).toList =
      "((_) @method ".toList ++ (opening ++ (inside.toList ++ (closing ++ [')']))) := by
    simp [methodRequest, TemplateSet.text, opening, closing]
  rw [htext]
  exact .placeholder (.of_notMem (by decide) ['\x7b'] _) (.of_notMem hinside ['\x7d'] _)
    (.literal (by decide))

theorem fillsMethod_methodRequest {inside : String}
    (hname : nameOf inside.toList = Slot.method.placeholder) :
    FillsMethod ((methodRequest inside).feature.constructsFor .python)
      [.literal "((_) @method ".toList, .placeholder inside.toList, .literal [')']] :=
  ⟨⟨"^get$", rfl⟩, inside.toList, by simp, hname⟩

theorem requiresMethod_iff_noBlanks :
    let r := methodRequest "method_predicate"
    QueryCache.empty.Keeps [r] ∧ FeatureRequest.NoCollision [r] ∧ r ∈ [r] ∧
      ∃ q, (r.serve .empty).1 = .ok q ∧
        q.text = "((_) @method (#match? @method \"^get$\"))" ∧ q.requiresMethod = true := by
  intro r
  have hkeeps := QueryCache.keeps_empty [r]
  have hrs : FeatureRequest.NoCollision [r] := .of_alike r (by simp)
  have hr : r ∈ [r] := List.mem_singleton_self r
  have hserved : (r.serve .empty).1.toOption.map (fun q => (q.template, q.text)) =
      some (.callExpression, "((_) @method (#match? @method \"^get$\"))") := by decide +kernel
  obtain ⟨q, hq, htold⟩ := Option.map_eq_some_iff.mp hserved
  obtain ⟨htemplate, htext⟩ := Prod.mk.inj htold
  rw [Detector.toOption_eq_some_iff] at hq
  obtain ⟨parts, hparts, -, hrequires, -⟩ := requiresMethod_iff hkeeps hrs hr hq
  rw [htemplate] at hparts
  obtain rfl := hparts.unique (isReading_methodRequest (by decide))
  have hmethod := hrequires.mpr ⟨fillsMethod_methodRequest (by decide), by decide⟩
  exact ⟨hkeeps, hrs, hr, q, hq, htext, hmethod⟩

/-- With blanks around the name the predicate is filled in, and the method is not required. -/
theorem requiresMethod_blanks :
    let r := methodRequest " method_predicate "
    ∃ q parts, (r.serve .empty).1 = .ok q ∧
      IsReading (r.templates.text q.template).toList parts ∧
      FillsMethod (r.feature.constructsFor r.language.family) parts ∧
      q.text = "((_) @method (#match? @method \"^get$\"))" ∧ q.requiresMethod = false := by
  intro r
  have hserved : (r.serve .empty).1.toOption.map
        (fun q => (q.template, q.text, q.requiresMethod)) =
      some (.callExpression, "((_) @method (#match? @method \"^get$\"))", false) := by
    decide +kernel
  obtain ⟨q, hq, htold⟩ := Option.map_eq_some_iff.mp hserved
  obtain ⟨htemplate, hrest⟩ := Prod.mk.inj htold
  obtain ⟨htext, hmethod⟩ := Prod.mk.inj hrest
  have hparts : IsReading (r.templates.text .callExpression).toList
      [.literal "((_) @method ".toList, .placeholder " method_predicate ".toList,
        .literal [')']] :=
    isReading_methodRequest (by decide)
  rw [← htemplate] at hparts
  exact ⟨q, _, Detector.toOption_eq_some_iff.mp hq, hparts, fillsMethod_methodRequest (by decide),
    htext, hmethod⟩

end FeatureQuery

end SourceFacts
