import SourceFacts.Proofs.Detector.Justification

/-!
# Features of several libraries

A feature is identified by its library and its key, but a use only by the key and the lines. So a
detection can be dropped for one of another library, if both libraries have a feature with that key
and these are found on the same lines (`detect_append_ne`). That is all that features of one
library can take from those of another (`detect_append_of_librariesApart`).
-/

namespace SourceFacts.Detector

variable {p : ParsedSource} {templates : TemplateSet} {features front back : List Feature}
variable {c : QueryCache} {rs : List FeatureRequest} {d : Detection}

/-- What is detected has the key and the library of a feature that was given. -/
theorem exists_feature_of_mem_detect (hc : c.Keeps rs) (hrs : FeatureRequest.NoCollision rs)
    (hmem : ∀ f ∈ features, request p templates f ∈ rs)
    (hd : d ∈ (detect p templates features c).1) :
    ∃ f ∈ features, d.featureKey = f.key ∧ d.library = f.library := by
  rw [(detect_eq hc hrs hmem).1] at hd
  have hoccurs : d ∈ occurrences p templates features := (firstUses_sublist [] _).subset hd
  obtain ⟨f, hf, q, hsought, m, -, hmatch⟩ := mem_occurrences.mp hoccurs
  have hjustified := justified_of_detection? hsought hmatch
  exact ⟨f, hf, hjustified.key, hjustified.library⟩

/-- A second list of features adds what it gives by itself and the first does not have. -/
theorem detect_append (hc : c.Keeps rs) (hrs : FeatureRequest.NoCollision rs)
    (hmem : ∀ f ∈ front ++ back, request p templates f ∈ rs) :
    (detect p templates (front ++ back) c).1 = (detect p templates front c).1 ++
      (detect p templates back c).1.filter fun e =>
        !(uses (detect p templates front c).1).contains e.useKey := by
  rw [(detect_eq hc hrs hmem).1,
    (detect_eq hc hrs fun f hf => hmem f (List.mem_append_left back hf)).1,
    (detect_eq hc hrs fun f hf => hmem f (List.mem_append_right front hf)).1,
    occurrences_append, firstUses_append]

/-- **What libraries take from each other.** Through any cache that keeps the queries of earlier
requests, features of a second library add to those of a first what they give by themselves, less
the uses that the first already has. Nothing is lost if and only if no use is of both; this is so
if no feature of the one has the key of a feature of the other. What is lost is a detection on the
lines of one of another library with the same key. -/
theorem detect_append_of_librariesApart (p : ParsedSource) (templates : TemplateSet)
    (front back : List Feature) (c : QueryCache) (rs : List FeatureRequest) (hc : c.Keeps rs)
    (hrs : FeatureRequest.NoCollision (rs ++ (front ++ back).map (request p templates)))
    (hapart : ∀ f ∈ front, ∀ g ∈ back, f.library ≠ g.library) :
    let found (fs : List Feature) := (detect p templates fs c).1
    found (front ++ back) =
      found front ++ (found back).filter (fun e => !(uses (found front)).contains e.useKey) ∧
    (found (front ++ back) = found front ++ found back ↔
      ∀ d ∈ found front, ∀ e ∈ found back, d.useKey ≠ e.useKey) ∧
    ((∀ f ∈ front, ∀ g ∈ back, f.key ≠ g.key) →
      found (front ++ back) = found front ++ found back) ∧
    ∀ e ∈ found back, e ∉ found (front ++ back) →
      ∃ d ∈ found front, d.library ≠ e.library ∧ d.featureKey = e.featureKey ∧
        d.startLine = e.startLine ∧ d.endLine = e.endLine := by
  intro found
  have hkeeps := hc.mono (List.subset_append_left rs ((front ++ back).map (request p templates)))
  have hmem : ∀ f ∈ front ++ back,
      request p templates f ∈ rs ++ (front ++ back).map (request p templates) :=
    fun f hf => List.mem_append_right rs (List.mem_map_of_mem hf)
  have hfront : ∀ d ∈ found front, ∃ f ∈ front, d.featureKey = f.key ∧ d.library = f.library :=
    fun d hd => exists_feature_of_mem_detect hkeeps hrs
      (fun f hf => hmem f (List.mem_append_left back hf)) hd
  have hback : ∀ e ∈ found back, ∃ g ∈ back, e.featureKey = g.key ∧ e.library = g.library :=
    fun e he => exists_feature_of_mem_detect hkeeps hrs
      (fun g hg => hmem g (List.mem_append_right front hg)) he
  have happend : found (front ++ back) = found front ++
      (found back).filter fun e => !(uses (found front)).contains e.useKey :=
    detect_append hkeeps hrs hmem
  have hnone : found (front ++ back) = found front ++ found back ↔
      ∀ d ∈ found front, ∀ e ∈ found back, d.useKey ≠ e.useKey := by
    rw [happend, List.append_cancel_left_eq, List.filter_eq_self]
    simp only [Bool.not_eq_true', ← Bool.not_eq_true, List.contains_iff_mem, uses, List.mem_map,
      not_exists, not_and]
    exact ⟨fun h d hd e he => h e he d hd, fun h e he d hd => h d hd e he⟩
  refine ⟨happend, hnone, fun hkeys => hnone.mpr fun d hd e he huse => ?_, fun e he hlost => ?_⟩
  · obtain ⟨f, hf, hdkey, -⟩ := hfront d hd
    obtain ⟨g, hg, hekey, -⟩ := hback e he
    have hkey : d.featureKey = e.featureKey := congrArg Prod.fst huse
    exact hkeys f hf g hg (hdkey ▸ hekey ▸ hkey)
  · have huse : e.useKey ∈ uses (found front) := by
      by_contra hnot
      refine hlost ?_
      rw [happend, List.mem_append, List.mem_filter]
      exact Or.inr ⟨he, by simpa using hnot⟩
    obtain ⟨d, hd, hsame⟩ := List.mem_map.mp huse
    obtain ⟨f, hf, -, hdlibrary⟩ := hfront d hd
    obtain ⟨g, hg, -, helibrary⟩ := hback e he
    have hother : d.library ≠ e.library := by
      rw [hdlibrary, helibrary]
      exact hapart f hf g hg
    simp only [Detection.useKey, Prod.mk.injEq] at hsame
    exact ⟨d, hd, hother, hsame⟩

theorem detect_append_of_librariesApart_otherKey :
    let callee : Syntax.Node := ⟨"identifier", true, some "function", ⟨0, 7, 0, 0⟩, []⟩
    let arguments : Syntax.Node := ⟨"argument_list", true, some "arguments", ⟨7, 9, 0, 0⟩, []⟩
    let p : ParsedSource :=
      { language := .python, text := .ofString "FastAPI()"
        root := ⟨"call", true, none, ⟨0, 9, 0, 0⟩, [callee, arguments]⟩
        context := ⟨.python, ["fastapi.FastAPI"], ⟨[("fastapi.FastAPI", "FastAPI")]⟩, []⟩ }
    let templates : TemplateSet :=
      { family := "python", decoratorClass := "", decoratorFunction := ""
        callExpression := "(_ (_) @callee) @target", inheritance := "" }
    let app : Feature :=
      { key := "app", library := "fastapi", paths := ["fastapi.FastAPI"], target := .function
        concept := .call, strategy := .direct, constructs := none, description := ""
        startpoint := false }
    -- No template is for functions that inherit.
    let view : Feature :=
      { app with key := "view", library := "flask", paths := ["fastapi"], concept := .inheritance }
    let r := request p templates app
    let c := (r.serve .empty).2
    let found (fs : List Feature) := (detect p templates fs c).1
    c.Keeps [r] ∧ FeatureRequest.NoCollision ([r] ++ ([app] ++ [view]).map (request p templates)) ∧
      (∀ f ∈ [app], ∀ g ∈ [view], f.library ≠ g.library) ∧
      (found [app]).length = 1 ∧ found ([app] ++ [view]) = found [app] ++ found [view] := by
  intro callee arguments p templates app view r c found
  have htexts : ([r] ++ ([app] ++ [view]).map (request p templates)).filterMap
      FeatureRequest.templateText? = List.replicate 2 templates.callExpression := rfl
  have hshapes : ([r] ++ ([app] ++ [view]).map (request p templates)).filterMap
      FeatureRequest.shapeText? = List.replicate 2 (FeatureQuery.shape app).compact := rfl
  have hrs : FeatureRequest.NoCollision ([r] ++ ([app] ++ [view]).map (request p templates)) := by
    constructor
    · rw [htexts]
      exact Blake3.noCollision_replicate _ _
    · rw [hshapes]
      exact Blake3.noCollision_replicate _ _
  have hc : c.Keeps [r] := ((QueryCache.keeps_empty [r]).serve (hrs.mono (by simp)) (by simp)).2
  have happ : (found [app]).length = 1 := by
    have hmem : ∀ f ∈ [app], request p templates f ∈ [r] := by simp [r]
    have hfound : found [app] = firstUses [] (occurrences p templates [app]) :=
      (detect_eq hc (hrs.mono (by simp)) hmem).1
    rw [hfound]
    decide +kernel
  have hapart : ∀ f ∈ [app], ∀ g ∈ [view], f.library ≠ g.library := by
    simp [app, view]
  have hkeys : ∀ f ∈ [app], ∀ g ∈ [view], f.key ≠ g.key := by
    simp [app, view]
  exact ⟨hc, hrs, hapart, happ,
    (detect_append_of_librariesApart p templates [app] [view] c [r] hc hrs hapart).2.2.1 hkeys⟩

/-- Whatever the cache, what two lists both use is not detected twice. -/
theorem detect_append_ne_of_useKey_eq {e : Detection} (hd : d ∈ (detect p templates front c).1)
    (he : e ∈ (detect p templates back c).1) (huse : d.useKey = e.useKey) :
    (detect p templates (front ++ back) c).1 ≠
      (detect p templates front c).1 ++ (detect p templates back c).1 := by
  intro happend
  have hnodup : (uses (detect p templates (front ++ back) c).1).Nodup :=
    nodup_uses_firstUses [] _
  rw [happend, uses, List.map_append, List.nodup_append] at hnodup
  exact hnodup.2.2 _ (mem_uses_of_mem hd) _ (mem_uses_of_mem he) huse

/-- Two libraries with a feature of the same key, both used on one line. -/
theorem detect_append_ne :
    let arguments (start : Nat) : Syntax.Node :=
      ⟨"argument_list", true, some "arguments", ⟨start, start + 2, 0, 0⟩, []⟩
    let call (start stop : Nat) : Syntax.Node :=
      ⟨"call", true, none, ⟨start, stop + 2, 0, 0⟩,
        [⟨"identifier", true, some "function", ⟨start, stop, 0, 0⟩, []⟩, arguments stop]⟩
    let p : ParsedSource :=
      { language := .python, text := .ofString "FastAPI(), Flask()"
        root := ⟨"expression_list", true, none, ⟨0, 18, 0, 0⟩, [call 0 7, call 11 16]⟩
        context := ⟨.python, ["fastapi.FastAPI", "flask.Flask"],
          ⟨[("fastapi.FastAPI", "FastAPI"), ("flask.Flask", "Flask")]⟩, []⟩ }
    let templates : TemplateSet :=
      { family := "python", decoratorClass := "", decoratorFunction := ""
        callExpression := "(_ (_) @callee) @target", inheritance := "" }
    let app (library path : String) : Feature :=
      { key := "app", library, paths := [path], target := .function
        concept := .call, strategy := .direct, constructs := none, description := ""
        startpoint := false }
    let front := [app "fastapi" "fastapi.FastAPI"]
    let back := [app "flask" "flask.Flask"]
    let found (fs : List Feature) := (detect p templates fs .empty).1
    (∀ f ∈ front, ∀ g ∈ back, f.library ≠ g.library) ∧
      found (front ++ back) ≠ found front ++ found back := by
  intro arguments call p templates app front back found
  have hfound (f : Feature) : found [f] = firstUses [] (occurrences p templates [f]) := by
    have hrs : FeatureRequest.NoCollision [request p templates f] :=
      .of_alike (request p templates f) (by simp)
    exact (detect_eq (QueryCache.keeps_empty _) hrs (by simp)).1
  have hsame : ∃ d ∈ found front, ∃ e ∈ found back, d.useKey = e.useKey := by
    rw [hfound, hfound]
    decide +kernel
  obtain ⟨d, hd, e, he, huse⟩ := hsame
  exact ⟨by decide, detect_append_ne_of_useKey_eq hd he huse⟩

end SourceFacts.Detector
