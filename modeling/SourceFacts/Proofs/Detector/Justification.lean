import SourceFacts.Proofs.Detector.Reference
import SourceFacts.Proofs.Imports.Expansion
import SourceFacts.Proofs.Tables

/-!
# Why something is detected

Behind every detection stands a feature, one of whose paths is imported, and a match of its query
that goes back to the import in the way that the feature's strategy says (`Justified`,
`detect_justified`).

The three forms of features are dealt with by different functions. What they have in common is
said once (`Shows`): each accepts a match by the expression that its form has the strategy look
at (`subject?`), and each tells the key, the library and the lines in the same way.
-/

namespace SourceFacts

/-- The concept of which a form of use is an instance. -/
def DetectionKind.concept : DetectionKind → Concept
  | .decorator .. => .decorator
  | .call .. => .call
  | .inheritance .. => .inheritance

theorem TargetLevel.eq_of_bne_eq_false {a b : TargetLevel} (h : (a != b) = false) : a = b := by
  revert h
  cases a <;> cases b <;> decide

namespace Detector

variable {p : ParsedSource} {templates : TemplateSet} {f : Feature} {features : List Feature}
variable {l : Locator} {h : Hit} {q : FeatureQuery} {m : Query.Match} {d : Detection}
variable {c : QueryCache} {rs : List FeatureRequest}

/-- The mark of an entry point goes by the feature alone, where there was none before. -/
theorem isStartpoint_stamp (f : Feature) (hd : d.metadata.get? "startpoint" = none) :
    (stamp f d).isStartpoint = f.startpoint := by
  have htarget : "startpoint" ≠ "target" := by decide
  have hlocator : "startpoint" ≠ "locator" := by decide
  cases hf : f.startpoint <;>
    simp [stamp, Detection.isStartpoint, Detection.withMetadata, hf, hd, htarget, hlocator]

/-- A stamp only adds metadata. -/
theorem stamp_eq (f : Feature) (d : Detection) :
    stamp f d = { d with metadata := (stamp f d).metadata } := by
  unfold stamp
  split <;> rfl

/-! ## What a match goes by -/

/-- What a match calls a member on. -/
def receiver? (p : ParsedSource) (h : Hit) : Option String :=
  (h.place? "bound_object").map fun b => p.text.textOf b.node

/-- The expression of a match that a feature of the given concept has to go back to the import
by, where it does so directly. -/
def subject? (p : ParsedSource) (concept : Concept) (h : Hit) : Option String :=
  match concept with
  | .decorator => (h.place? "annotation").map fun a => decoratorSubject p.text a.node
  | .call => (h.place? "callee").map fun e => p.text.textOf e.node
  | .inheritance => (h.place? "superclass").map fun e => p.text.textOf e.node

/-- A text is a local spelling of one of the paths of a feature. -/
def IsSpelling (c : SourceContext) (f : Feature) (text : String) : Prop :=
  ∃ path ∈ f.paths, text ∈ c.aliases.localReferences path

/-- A match goes back to the import of a feature. With variables, its receiver is one that holds
the result of calling what was imported; directly, its expression is what was imported or a
member of it. -/
def Located (p : ParsedSource) (f : Feature) (h : Hit) : Prop :=
  match f.strategy with
  | .variableBound => ∃ receiver, receiver? p h = some receiver ∧
      ∃ b ∈ p.context.bindings, b.name = receiver ∧ IsSpelling p.context f b.callee
  | .direct => ∃ subject, subject? p f.concept h = some subject ∧
      ∃ r, IsSpelling p.context f r ∧ (subject = r ∨ ∃ rest, subject = r ++ "." ++ rest)

/-- What stands behind a detection: the feature that it names, one of whose paths is imported or
contains what is, and a match of the feature's query. -/
structure Justified (p : ParsedSource) (f : Feature) (q : FeatureQuery) (m : Query.Match)
    (d : Detection) : Prop where
  key : d.featureKey = f.key
  library : d.library = f.library
  imported : ∃ path ∈ f.paths, ∃ imported ∈ p.context.imports, Imports.StandsIn path imported
  located : Located p f ⟨q.query, m⟩
  concept : d.kind.concept = f.concept
  /-- What a decorator is attached to has the level that the feature asks for. -/
  level : f.concept = .decorator → ∃ decorator name,
    Hit.place? ⟨q.query, m⟩ "annotation" = some decorator ∧
      decoratedTarget? p.language p.text decorator = some (f.target, name)
  /-- A method that the feature narrows down is there. -/
  method : q.requiresMethod = true → (Hit.place? ⟨q.query, m⟩ "method").isSome
  startpoint : d.isStartpoint = f.startpoint
  lines : 1 ≤ d.startLine ∧ d.startLine ≤ d.endLine

/-! ## Going back to the import -/

theorem isReference_iff {subject : String} {references : List String} :
    isReference subject references = true ↔
      ∃ r ∈ references, subject = r ∨ ∃ rest, subject = r ++ "." ++ rest := by
  rw [isReference, List.any_eq_true]
  refine exists_congr fun r => and_congr_right fun _ => ?_
  rw [Bool.or_eq_true, beq_iff_eq]
  refine or_congr_right ⟨fun hmember => ?_, ?_⟩
  · split at hmember
    · rename_i rest hafter
      have hsubject := Text.afterFront?_eq_some_iff.mp hafter
      exact ⟨String.ofList rest, eq_dotted_iff.mpr (by rw [hsubject, String.toList_ofList])⟩
    · cases hmember
  · rintro ⟨rest, hrest⟩
    rw [Text.afterFront?_eq_some_iff.mpr (eq_dotted_iff.mp hrest)]
    rfl

theorem mem_referencesOf {context : SourceContext} {text : String} :
    text ∈ referencesOf context f ↔ IsSpelling context f text := by
  simp only [referencesOf, List.mem_eraseDups, List.mem_flatMap, IsSpelling]

theorem mem_boundVariables {context : SourceContext} {name : String} {references : List String} :
    name ∈ context.boundVariables references ↔
      ∃ b ∈ context.bindings, b.name = name ∧ b.callee ∈ references := by
  simp only [SourceContext.boundVariables, List.mem_eraseDups, List.mem_map, List.mem_filter,
    List.contains_iff_mem]
  constructor
  · rintro ⟨b, ⟨hb, hcallee⟩, hname⟩
    exact ⟨b, hb, hname, hcallee⟩
  · rintro ⟨b, hb, hname, hcallee⟩
    exact ⟨b, ⟨hb, hcallee⟩, hname⟩

theorem located_of_accepts {subject : String} (hsubject : subject? p f.concept h = some subject)
    (haccepts : (locatorOf p.context f).accepts (receiver? p h) subject = true) :
    Located p f h := by
  cases hstrategy : f.strategy with
  | variableBound =>
    simp only [Locator.accepts, locatorOf, hstrategy, Option.any_eq_true,
      List.contains_iff_mem] at haccepts
    obtain ⟨receiver, hreceiver, hbound⟩ := haccepts
    obtain ⟨b, hb, hname, hcallee⟩ := mem_boundVariables.mp hbound
    simp only [Located, hstrategy]
    exact ⟨receiver, hreceiver, b, hb, hname, mem_referencesOf.mp hcallee⟩
  | direct =>
    simp only [Locator.accepts, locatorOf, hstrategy] at haccepts
    obtain ⟨r, hr, hmember⟩ := isReference_iff.mp haccepts
    simp only [Located, hstrategy]
    exact ⟨subject, hsubject, r, mem_referencesOf.mp hr, hmember⟩

/-! ## The three forms -/

/-- What a detection shows before it is stamped, as far as the three forms have it in common. -/
structure Shows (p : ParsedSource) (l : Locator) (concept : Concept) (h : Hit) (d : Detection) :
    Prop where
  key : d.featureKey = l.feature.key
  library : d.library = l.feature.library
  kind : d.kind.concept = concept
  accepted : ∃ subject, subject? p concept h = some subject ∧
    l.accepts (receiver? p h) subject = true
  level : concept = .decorator → ∃ decorator name, h.place? "annotation" = some decorator ∧
    decoratedTarget? p.language p.text decorator = some (l.feature.target, name)
  unmarked : d.metadata.get? "startpoint" = none
  lines : 1 ≤ d.startLine ∧ d.startLine ≤ d.endLine

/-- The lines of nodes count from one, and a detection has them in order. -/
theorem lines_new (key library text : String) (first last : Syntax.Node) (kind : DetectionKind) :
    1 ≤ (Detection.new key library text (lines first last) kind).startLine ∧
      (Detection.new key library text (lines first last) kind).startLine ≤
        (Detection.new key library text (lines first last) kind).endLine := by
  simp only [Detection.new, lines, Syntax.Span.firstLine, Syntax.Span.lastLine]
  omega

theorem shows_decorator? (hd : decorator? p l h = some d) : Shows p l .decorator h d := by
  simp only [decorator?, Option.bind_eq_bind, Option.bind_eq_some_iff] at hd
  obtain ⟨decorator, hdecorator, name, hname, ⟨level, targetName⟩, hlevel, hd⟩ := hd
  split at hd
  · cases hd
  · rename_i hsame
    split at hd
    · cases hd
    · rename_i haccepts
      have htarget : level = l.feature.target :=
        TargetLevel.eq_of_bne_eq_false (by simpa using hsame)
      have haccepted : l.accepts (receiver? p h) (decoratorSubject p.text decorator.node) = true :=
        by simpa [receiver?] using haccepts
      have hsubject : subject? p .decorator h = some (decoratorSubject p.text decorator.node) := by
        simp [subject?, hdecorator]
      have hlines := lines_new l.feature.key l.feature.library
        (Text.trimmed (p.text.textOf decorator.node)) decorator.node decorator.node
        (.decorator (receiver? p h) (p.text.textOf name.node) l.receivers)
      subst htarget
      cases targetName with
      | none =>
        cases hd
        exact ⟨rfl, rfl, rfl, ⟨_, hsubject, haccepted⟩,
          fun _ => ⟨decorator, none, hdecorator, hlevel⟩, rfl, hlines⟩
      | some target =>
        cases hd
        exact ⟨rfl, rfl, rfl, ⟨_, hsubject, haccepted⟩,
          fun _ => ⟨decorator, some target, hdecorator, hlevel⟩, rfl, hlines⟩

theorem shows_call? (hd : call? p l h = some d) : Shows p l .call h d := by
  simp only [call?, Option.bind_eq_bind, Option.bind_eq_some_iff] at hd
  obtain ⟨target, htarget, callee, hcallee, hd⟩ := hd
  split at hd
  · cases hd
  · rename_i haccepts
    have haccepted : l.accepts (receiver? p h) (p.text.textOf callee.node) = true := by
      simpa [receiver?] using haccepts
    have hsubject : subject? p .call h = some (p.text.textOf callee.node) := by
      simp [subject?, hcallee]
    cases hd
    exact ⟨rfl, rfl, rfl, ⟨_, hsubject, haccepted⟩, nofun, rfl, lines_new _ _ _ _ _ _⟩

theorem shows_inheritance? (hd : inheritance? p l h = some d) : Shows p l .inheritance h d := by
  simp only [inheritance?, Option.bind_eq_bind, Option.bind_eq_some_iff] at hd
  obtain ⟨target, htarget, subclass, hsubclass, base, hbase, hd⟩ := hd
  split at hd
  · cases hd
  · rename_i haccepts
    have haccepted : l.accepts (receiver? p h) (p.text.textOf base.node) = true := by
      simpa [receiver?] using haccepts
    have hsubject : subject? p .inheritance h = some (p.text.textOf base.node) := by
      simp [subject?, hbase]
    cases hd
    exact ⟨rfl, rfl, rfl, ⟨_, hsubject, haccepted⟩, nofun, rfl, lines_new _ _ _ _ _ _⟩

/-- A match that is accepted shows the feature, and its method if the query requires one. -/
theorem shows_detection? (hd : detection? p l q m = some d) :
    (q.requiresMethod = true → (Hit.place? ⟨q.query, m⟩ "method").isSome) ∧
      ∃ shown, d = stamp l.feature shown ∧
        Shows p l l.feature.concept ⟨q.query, m⟩ shown := by
  simp only [detection?, Option.ite_none_left_eq_some, Option.map_eq_some_iff] at hd
  obtain ⟨hmethod, shown, hshown, rfl⟩ := hd
  refine ⟨fun hrequires => ?_, shown, rfl, ?_⟩
  · simpa [hrequires, Option.isSome_iff_ne_none] using hmethod
  · cases hconcept : l.feature.concept with
    | decorator => exact shows_decorator? (by simpa only [hconcept] using hshown)
    | call => exact shows_call? (by simpa only [hconcept] using hshown)
    | inheritance => exact shows_inheritance? (by simpa only [hconcept] using hshown)

theorem justified_of_detection? (hsought : Sought p templates f q)
    (hd : detection? p (locatorOf p.context f) q m = some d) : Justified p f q m d := by
  obtain ⟨hmethod, shown, rfl, hshown⟩ := shows_detection? hd
  obtain ⟨subject, hsubject, haccepted⟩ := hshown.accepted
  obtain ⟨path, hpath, hexpanded⟩ := hsought.eligible
  obtain ⟨-, himported⟩ := SourceContext.mem_expandedImports.mp hexpanded
  have hstartpoint : (stamp f shown).isStartpoint = f.startpoint :=
    isStartpoint_stamp f hshown.unmarked
  -- All but the metadata is as it was shown.
  have hstamp : stamp f shown = { shown with metadata := (stamp f shown).metadata } :=
    stamp_eq f shown
  show Justified p f q m (stamp f shown)
  constructor
  case key => rw [hstamp]; exact hshown.key
  case library => rw [hstamp]; exact hshown.library
  case imported => exact ⟨path, hpath, himported⟩
  case located => exact located_of_accepts hsubject haccepted
  case concept => rw [hstamp]; exact hshown.kind
  case level => exact hshown.level
  case method => exact hmethod
  case startpoint => exact hstartpoint
  case lines => rw [hstamp]; exact hshown.lines

/-- **Every detection is justified.** Through any cache that keeps the queries of earlier
requests, whatever is detected comes from a feature of the list and a match of the query that
this feature compiles to, and these justify it. -/
theorem detect_justified (p : ParsedSource) (templates : TemplateSet) (features : List Feature)
    (c : QueryCache) (rs : List FeatureRequest) (hc : c.Keeps rs)
    (hrs : FeatureRequest.NoCollision (rs ++ features.map (request p templates))) :
    ∀ d ∈ (detect p templates features c).1, ∃ f ∈ features, ∃ q,
      FeatureQuery.compile p.language templates f = .ok q ∧
        ∃ m ∈ q.query.matchesOf p.text p.root,
          detection? p (locatorOf p.context f) q m = some d ∧ Justified p f q m d := by
  intro d hd
  have hkeeps := hc.mono (List.subset_append_left rs (features.map (request p templates)))
  have hmem : ∀ f ∈ features, request p templates f ∈ rs ++ features.map (request p templates) :=
    fun f hf => List.mem_append_right rs (List.mem_map_of_mem hf)
  rw [(detect_eq hkeeps hrs hmem).1] at hd
  have hoccurs : d ∈ occurrences p templates features := (firstUses_sublist [] _).subset hd
  obtain ⟨f, hf, q, hsought, m, hm, hmatch⟩ := mem_occurrences.mp hoccurs
  exact ⟨f, hf, q, hsought.compiled, m, hm, hmatch, justified_of_detection? hsought hmatch⟩

theorem detect_justified_variableBound :
    let app : Syntax.Node := ⟨"identifier", true, some "object", ⟨1, 4, 0, 0⟩, []⟩
    let get : Syntax.Node := ⟨"identifier", true, some "attribute", ⟨5, 8, 0, 0⟩, []⟩
    let applied : Syntax.Node := ⟨"attribute", true, none, ⟨1, 8, 0, 0⟩, [app, get]⟩
    let decorator : Syntax.Node := ⟨"decorator", true, none, ⟨0, 8, 0, 0⟩, [applied]⟩
    let name : Syntax.Node := ⟨"identifier", true, some "name", ⟨13, 17, 1, 1⟩, []⟩
    let function : Syntax.Node :=
      ⟨"function_definition", true, some "definition", ⟨9, 24, 1, 1⟩, [name]⟩
    let p : ParsedSource :=
      { language := .python, text := .ofString "@app.get\ndef read(): ..."
        root := ⟨"decorated_definition", true, none, ⟨0, 24, 0, 1⟩, [decorator, function]⟩
        context := ⟨.python, ["fastapi.FastAPI"], ⟨[("fastapi.FastAPI", "FastAPI")]⟩,
          [⟨"app", "FastAPI", 1⟩]⟩ }
    let templates : TemplateSet :=
      { family := "python", decoratorClass := "", callExpression := "", inheritance := ""
        decoratorFunction := "(_ (_ (_) @bound_object (_) @annotation_name)) @annotation" }
    let f : Feature :=
      { key := "route", library := "fastapi", paths := ["fastapi.FastAPI"], target := .function
        concept := .decorator, strategy := .variableBound, constructs := none, description := ""
        startpoint := true }
    QueryCache.empty.Keeps [] ∧
      FeatureRequest.NoCollision ([] ++ [f].map (request p templates)) ∧
      (detect p templates [f] .empty).1 ≠ [] ∧
      ∀ d ∈ (detect p templates [f] .empty).1, ∃ g ∈ [f], ∃ q,
        FeatureQuery.compile p.language templates g = .ok q ∧
          ∃ m ∈ q.query.matchesOf p.text p.root,
            detection? p (locatorOf p.context g) q m = some d ∧ Justified p g q m d := by
  intro app get applied decorator name function p templates f
  have hc : QueryCache.empty.Keeps [] := QueryCache.keeps_empty []
  have hrs : FeatureRequest.NoCollision ([] ++ [f].map (request p templates)) :=
    .of_alike (request p templates f) fun r hr => by
      obtain rfl : r = request p templates f := by simpa using hr
      exact ⟨rfl, rfl⟩
  have hfound : (detect p templates [f] .empty).1 =
      firstUses [] (occurrences p templates [f]) :=
    (detect_eq (hc.mono (by simp)) hrs fun g hg => by simp [List.mem_singleton.mp hg]).1
  refine ⟨hc, hrs, ?_, detect_justified p templates [f] .empty [] hc hrs⟩
  rw [hfound]
  decide +kernel

end Detector

end SourceFacts
