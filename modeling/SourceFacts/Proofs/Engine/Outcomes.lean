import SourceFacts.Proofs.Engine.OwnCache
import SourceFacts.Proofs.Outline.Query

/-!
# What an analysis comes to

Whether the analysis of a source gives facts or an error depends on its bytes and on the templates
of its language, and on nothing else (`Engine.analyzeSource_classified`). Bytes that are no text
are refused as such, before the cache is looked at. A language without templates is refused with
what is wrong with them. Everything else has facts: a query for data models that cannot be had
only leaves them without data models.

The analysis could fail at one more place, the query for outlines. But that query is embedded and
compiles (`Outline.compile_querySource`), and among the requests that engines make there is none for
another set under its key (`Engine.Produced.outline`).
-/

namespace SourceFacts

/-! ## Bytes that are no text -/

/-- Bytes among which there is a zero, or which encode no sequence of characters. -/
def NoText (content : ByteArray) : Prop :=
  0 ∈ content.data ∨ ¬ ∃ cs : List Char, content = cs.utf8Encode

namespace Text.Utf8

variable {content : ByteArray}

theorem exists_decode (h : ∃ cs : List Char, content = cs.utf8Encode) :
    ∃ text, decode content = .ok text := by
  obtain ⟨cs, hcs⟩ := h
  have hvalid : content.IsValidUTF8 := .intro cs hcs
  refine ⟨String.fromUTF8 content hvalid, ?_⟩
  simp only [decode, String.fromUTF8?, dif_pos hvalid]

theorem exists_fault (h : ¬ ∃ cs : List Char, content = cs.utf8Encode) :
    ∃ fault, decode content = .error fault := by
  have hinvalid : ¬ content.IsValidUTF8 := by
    rintro ⟨cs, hcs⟩
    exact h ⟨cs, hcs⟩
  simp only [decode, String.fromUTF8?, dif_neg hinvalid]
  exact ⟨_, rfl⟩

end Text.Utf8

namespace Engine

variable {e : Engine} {fs : FileSystem} {c : QueryCache} {l : Language}
variable {path : String} {content : ByteArray}

theorem textOf_binary (path : String) (h : 0 ∈ content.data) :
    textOf path content = .error (.parse path "binary content") := by
  rw [textOf, if_pos (by simpa using h)]

theorem textOf_notUtf8 (path : String) (hzero : 0 ∉ content.data)
    (h : ¬ ∃ cs : List Char, content = cs.utf8Encode) :
    ∃ fault, Text.Utf8.decode content = .error fault ∧
      textOf path content = .error (.parse path ("not valid UTF-8: " ++ fault.message)) := by
  obtain ⟨fault, hfault⟩ := Text.Utf8.exists_fault h
  refine ⟨fault, hfault, ?_⟩
  rw [textOf, if_neg (by simpa using hzero), hfault]

theorem exists_refusal (path : String) (h : NoText content) :
    ∃ reason, textOf path content = .error (.parse path reason) := by
  by_cases hzero : 0 ∈ content.data
  · exact ⟨_, textOf_binary path hzero⟩
  · obtain ⟨fault, -, htext⟩ := textOf_notUtf8 path hzero (h.resolve_left hzero)
    exact ⟨_, htext⟩

theorem exists_textOf (path : String) (h : ¬ NoText content) :
    ∃ text, textOf path content = .ok text := by
  obtain ⟨hzero, hencoded⟩ := not_or.mp h
  obtain ⟨text, htext⟩ := Text.Utf8.exists_decode (not_not.mp hencoded)
  refine ⟨text, ?_⟩
  rw [textOf, if_neg (by simpa using hzero), htext]

/-! ## Caches that engines produce -/

/-- A cache that engines produce: starting with an empty one, requests of some engines have been
served, in whatever order and whatever the files were at the time. -/
inductive Produced : QueryCache → Prop
  | empty : Produced .empty
  | serve {c : QueryCache} {r : CacheRequest} (h : Produced c) (e : Engine) (hr : e.Asks r)
      (fs : FileSystem) : Produced (r.serve fs c).2

namespace Produced

theorem analyzeSource (h : Produced c) (e : Engine) (fs : FileSystem) (path : String)
    (l : Language) (content : ByteArray) :
    Produced (e.analyzeSource fs path l content c).2 := by
  rw [← run_sourceAnalysis]
  exact Analysis.run_keeps (fun _ _ hr hc => hc.serve e hr fs)
    (e.asksOnly_sourceAnalysis path l content) h

theorem analyzeFile (h : Produced c) (e : Engine) (fs : FileSystem) (path : String) :
    Produced (e.analyzeFile fs path c).2 := by
  rw [← run_fileAnalysis]
  exact Analysis.run_keeps (fun _ _ hr hc => hc.serve e hr fs)
    (e.asksOnly_fileAnalysis fs path) h

theorem analyzeFiles (h : Produced c) (e : Engine) (fs : FileSystem) (paths : List String) :
    Produced (e.analyzeFiles fs paths c).2 := by
  induction paths generalizing c with
  | nil => exact h
  | cons path rest ih => exact ih (h.analyzeFile e fs path)

/-- Under the key of the query for outlines there is this query or nothing. -/
theorem outline (h : Produced c) {b : BoundSet} (hb : c.bound? Outline.queryKey = some b) :
    b.language = .python ∧ b.sources = [Outline.querySource] := by
  induction h with
  | empty => cases hb
  | @serve c r h e hr fs ih =>
    cases hr with
    | outline =>
      simp only [CacheRequest.serve] at hb
      rcases QueryCache.bound?_of_querySet hb with hbefore | ⟨-, hl, hsources⟩
      · exact ih hbefore
      · exact ⟨hl, hsources⟩
    | models hs =>
      simp only [CacheRequest.serve] at hb
      rcases QueryCache.bound?_of_querySet hb with hbefore | ⟨hkey, -⟩
      · exact ih hbefore
      · exact absurd hkey.symm (queryKey_ne_outline _)
    | feature hr =>
      exact ih (QueryCache.bound?_congr (FeatureRequest.sets_serve _ c) ▸ hb)

end Produced

end Engine

/-! ## Outlines do not fail -/

namespace Outline

theorem exists_extract {c : QueryCache} (h : Engine.Produced c) (fs : FileSystem) (l : Language)
    (t : Syntax.SourceText) (root : Syntax.Node) : ∃ o, (extract fs l t root c).1 = .ok o := by
  cases l with
  | typescript => exact ⟨_, rfl⟩
  | tsx => exact ⟨_, rfl⟩
  | python =>
    obtain ⟨set, hset⟩ : ∃ set, (c.querySet fs queryKey .python [querySource]).1 = .ok set := by
      rcases c.querySet_cases fs queryKey .python [querySource] with ⟨b, -, -, -, hresult⟩ |
          ⟨⟨b, hb, hother⟩, -⟩ | ⟨set, -, -, hresult⟩ | ⟨fault, -, hfault, -⟩
      · exact ⟨b.set, by rw [hresult]⟩
      · exact absurd (h.outline hb) hother
      · exact ⟨set, by rw [hresult]⟩
      · rw [compile_querySource] at hfault
        cases hfault
    rw [extract_python, hset]
    exact ⟨_, rfl⟩

end Outline

namespace Engine

variable {e : Engine} {fs : FileSystem} {c : QueryCache} {l : Language}
variable {path : String} {content : ByteArray}

theorem exists_factsOfText (hc : Produced c) (e : Engine) (fs : FileSystem)
    (templates : TemplateSet) (path : String) (l : Language) (text : String) :
    ∃ facts, (e.factsOfText fs templates path l text c).1 = .ok facts := by
  let p := ParsedSource.ofText l text
  obtain ⟨outline, houtline⟩ := Outline.exists_extract hc fs l p.text p.root
  simp only [factsOfText]
  generalize Outline.extract fs l p.text p.root c = extracted at houtline
  obtain ⟨_, c'⟩ := extracted
  obtain rfl := houtline
  exact ⟨_, rfl⟩

/-! ## What an answer is -/

/-- The bytes of a source are no text, or its language has no templates, or it has facts. -/
theorem analyzeSource_cases (hc : Produced c) (e : Engine) (fs : FileSystem) (path : String)
    (l : Language) (content : ByteArray) :
    (NoText content ∧ ∃ reason, textOf path content = .error (.parse path reason) ∧
      e.analyzeSource fs path l content c = (.error (.parse path reason), c)) ∨
    (¬ NoText content ∧ ∃ fault, e.templates l.family = .error fault ∧
      (e.analyzeSource fs path l content c).1 = .error (.config fault)) ∨
    (¬ NoText content ∧ ∃ templates facts, e.templates l.family = .ok templates ∧
      (e.analyzeSource fs path l content c).1 = .ok facts) := by
  by_cases hbytes : NoText content
  · obtain ⟨reason, htext⟩ := exists_refusal path hbytes
    refine Or.inl ⟨hbytes, reason, htext, ?_⟩
    rw [analyzeSource, htext]
  · obtain ⟨text, htext⟩ := exists_textOf path hbytes
    cases htemplates : e.templates l.family with
    | error fault =>
      refine Or.inr (Or.inl ⟨hbytes, fault, rfl, ?_⟩)
      simp only [analyzeSource, htext, htemplates]
    | ok templates =>
      obtain ⟨facts, hfacts⟩ := exists_factsOfText hc e fs templates path l text
      refine Or.inr (Or.inr ⟨hbytes, templates, facts, rfl, ?_⟩)
      simp only [analyzeSource, htext, htemplates, hfacts]

/-- An answer to the analysis of a source tells what the bytes are like, and whether there are
templates for the language. -/
structure Classified (e : Engine) (path : String) (l : Language) (content : ByteArray)
    (c : QueryCache) (answer : Except EngineError FileFacts × QueryCache) : Prop where
  parse_iff : (∃ reason, answer.1 = .error (.parse path reason)) ↔ NoText content
  /-- A zero is told, whatever else is wrong with the bytes. -/
  binary : 0 ∈ content.data → answer.1 = .error (.parse path "binary content")
  notUtf8 : 0 ∉ content.data → NoText content → ∃ fault, Text.Utf8.decode content = .error fault ∧
    answer.1 = .error (.parse path ("not valid UTF-8: " ++ fault.message))
  untouched : NoText content → answer.2 = c
  config_iff : ∀ fault, answer.1 = .error (.config fault) ↔
    ¬ NoText content ∧ e.templates l.family = .error fault
  /-- Errors are of these two kinds. The first is not fatal, the second is. -/
  fatal_iff : ∀ fault, answer.1 = .error fault → (fault.isFatal = true ↔ ¬ NoText content)
  ok_iff : (∃ facts, answer.1 = .ok facts) ↔
    ¬ NoText content ∧ ∃ templates, e.templates l.family = .ok templates

theorem Classified.refused {answer : Except EngineError FileFacts × QueryCache} {reason : String}
    (hbytes : NoText content) (htext : textOf path content = .error (.parse path reason))
    (hanswer : answer = (.error (.parse path reason), c)) :
    Classified e path l content c answer := by
  subst hanswer
  refine ⟨⟨fun _ => hbytes, fun _ => ⟨reason, rfl⟩⟩, fun hzero => ?_, fun hzero _ => ?_,
    fun _ => rfl, ?_, ?_, ?_⟩
  · have hreason := htext.symm.trans (textOf_binary path hzero)
    cases hreason
    rfl
  · obtain ⟨fault, hfault, hreason⟩ := textOf_notUtf8 path hzero (hbytes.resolve_left hzero)
    rw [htext] at hreason
    refine ⟨fault, hfault, ?_⟩
    cases hreason
    rfl
  · simp [hbytes]
  · simp [hbytes, EngineError.isFatal]
  · simp [hbytes]

theorem Classified.config {answer : Except EngineError FileFacts × QueryCache}
    {fault : ConfigError} (hbytes : ¬ NoText content)
    (htemplates : e.templates l.family = .error fault)
    (hanswer : answer.1 = .error (.config fault)) : Classified e path l content c answer := by
  refine ⟨?_, fun hzero => absurd (Or.inl hzero) hbytes, fun _ h => absurd h hbytes,
    fun h => absurd h hbytes, ?_, ?_, ?_⟩
  · simp [hanswer, hbytes]
  · simp [hanswer, hbytes, htemplates]
  · simp [hanswer, hbytes, EngineError.isFatal]
  · simp [hanswer, htemplates]

theorem Classified.facts {answer : Except EngineError FileFacts × QueryCache}
    {templates : TemplateSet} {facts : FileFacts} (hbytes : ¬ NoText content)
    (htemplates : e.templates l.family = .ok templates) (hanswer : answer.1 = .ok facts) :
    Classified e path l content c answer := by
  refine ⟨?_, fun hzero => absurd (Or.inl hzero) hbytes, fun _ h => absurd h hbytes,
    fun h => absurd h hbytes, ?_, ?_, ?_⟩
  · simp [hanswer, hbytes]
  · simp [hanswer, htemplates]
  · simp [hanswer]
  · simp [hanswer, hbytes, htemplates]

theorem classified (hc : Produced c) (e : Engine) (fs : FileSystem) (path : String)
    (l : Language) (content : ByteArray) :
    Classified e path l content c (e.analyzeSource fs path l content c) := by
  rcases analyzeSource_cases hc e fs path l content with ⟨hbytes, reason, htext, hanswer⟩ |
      ⟨hbytes, fault, htemplates, hanswer⟩ | ⟨hbytes, templates, facts, htemplates, hanswer⟩
  · exact .refused hbytes htext hanswer
  · exact .config hbytes htemplates hanswer
  · exact .facts hbytes htemplates hanswer

/-- **What an analysis comes to.** With a cache that engines produced, the answer is classified by
the bytes and the templates of the language. So whether there are facts does not depend on the
queries for data models, on the files or on what the cache went through. -/
theorem analyzeSource_classified (hc : Produced c) (e : Engine) (fs : FileSystem) (path : String)
    (l : Language) (content : ByteArray) :
    Classified e path l content c (e.analyzeSource fs path l content c) ∧
    ∀ queries fs' c', Produced c' →
      ((∃ facts, (e.analyzeSource fs path l content c).1 = .ok facts) ↔
        ∃ facts, ({ e with modelQueries := queries }.analyzeSource fs' path l content c').1 =
          .ok facts) := by
  have hclassified := classified hc e fs path l content
  refine ⟨hclassified, fun queries fs' c' hc' => ?_⟩
  have hother := classified hc' { e with modelQueries := queries } fs' path l content
  exact hclassified.ok_iff.trans hother.ok_iff.symm

/-- An engine without templates for one language, and with a query for data models that is not
there: one source each of the three kinds that are refused, and one that is not. -/
theorem analyzeSource_classified_brokenQueries :
    let missing : ConfigError := .missingQueryFile "/queries/typescript/inheritance.scm"
    let e : Engine :=
      { pythonTemplates := .ok (.builtin .python), typescriptTemplates := .error missing
        modelQueries := [(.python, ⟨"data_model", .file "/queries/python/data_model.scm", false⟩)]
        catalog := .empty, rules := ⟨[]⟩ }
    let fs : FileSystem := ⟨.empty, []⟩
    let c := (e.analyzeSource fs "a.py" .python "import app".toUTF8 .empty).2
    Produced c ∧
      (e.analyzeSource fs "b.py" .python ⟨#[0xFF, 0]⟩ c).1 =
        .error (.parse "b.py" "binary content") ∧
      (e.analyzeSource fs "b.py" .python ⟨#[0xFF, 0]⟩ c).2 = c ∧
      (∃ reason, (e.analyzeSource fs "b.py" .python ⟨#[0xFF]⟩ c).1 =
        .error (.parse "b.py" ("not valid UTF-8: " ++ reason))) ∧
      (e.analyzeSource fs "b.ts" .typescript "b".toUTF8 c).1 = .error (.config missing) ∧
      ∃ facts, (e.analyzeSource fs "b.py" .python "b".toUTF8 c).1 = .ok facts := by
  intro missing e fs c
  have hc : Produced c := Produced.empty.analyzeSource e fs "a.py" .python _
  clear_value c
  have hzero : 0 ∈ (⟨#[0xFF, 0]⟩ : ByteArray).data := by simp
  have hinvalid : ¬ ∃ cs : List Char, (⟨#[0xFF]⟩ : ByteArray) = cs.utf8Encode := by
    have hbytes : ¬ (⟨#[0xFF]⟩ : ByteArray).IsValidUTF8 := by decide +kernel
    rintro ⟨cs, hcs⟩
    exact hbytes (.intro cs hcs)
  have htext : ¬ NoText "b".toUTF8 := by
    have hencoded : "b".toUTF8 = ['b'].utf8Encode := by decide
    have hbytes : "b".toUTF8 = ⟨#[98]⟩ := by decide
    refine not_or.mpr ⟨?_, not_not.mpr ⟨['b'], hencoded⟩⟩
    rw [hbytes]
    simp
  have hbinary := (analyzeSource_classified hc e fs "b.py" .python ⟨#[0xFF, 0]⟩).1
  refine ⟨hc, hbinary.binary hzero, hbinary.untouched (Or.inl hzero), ?_, ?_, ?_⟩
  · have h := (analyzeSource_classified hc e fs "b.py" .python ⟨#[0xFF]⟩).1
    obtain ⟨fault, -, hreason⟩ := h.notUtf8 (by simp) (Or.inr hinvalid)
    exact ⟨fault.message, hreason⟩
  · have h := (analyzeSource_classified hc e fs "b.ts" .typescript "b".toUTF8).1
    exact (h.config_iff missing).mpr ⟨htext, rfl⟩
  · have h := (analyzeSource_classified hc e fs "b.py" .python "b".toUTF8).1
    exact h.ok_iff.mpr ⟨htext, _, rfl⟩

end Engine

end SourceFacts
