import Mathlib.Data.List.Find
import SourceFacts.PackageManager
import SourceFacts.Proofs.Text.FirstPlace

/-!
# The first rule that matches

What it takes for a signature to match is said by `Signature.Matches`. The first rule with such a
signature names the package manager (`RuleTable.manager?_eq_some_iff`). Of a directory, rules see
the set of names listed, and the texts of the listed files of whose text a signature asks something
(`Listing.SameFor`, `RuleTable.manager?_congr`). Rules further on do not count once one has matched
(`RuleTable.manager?_of_isPrefix`), and where a signature asks something of a text, there has to be
one (`Signature.not_matches_of_noText`).
-/

namespace SourceFacts

variable {l l' : Listing} {s : Signature NamedGlob} {r : ManagerRule NamedGlob}
  {rules : List (ManagerRule NamedGlob)}

/-! ## Texts -/

theorem Text.Utf8.decode_eq_ok_iff {content : ByteArray} {text : String} :
    decode content = .ok text ↔ content = text.toUTF8 := by
  by_cases hvalid : content.IsValidUTF8
  · simp only [decode, String.fromUTF8?, dif_pos hvalid, Except.ok.injEq]
    constructor
    · rintro rfl
      rfl
    · rintro rfl
      rfl
  · simp only [decode, String.fromUTF8?, dif_neg hvalid, reduceCtorEq, false_iff]
    rintro rfl
    exact hvalid text.isValidUTF8

/-- The text of a file is what its content stands for. -/
theorem FileSystem.readText_eq_ok_iff {fs : FileSystem} {path text : String} :
    fs.readText path = .ok text ↔ fs.read path = .ok text.toUTF8 := by
  unfold readText
  cases fs.read path with
  | error fault => simp
  | ok content =>
    rw [Except.ok.injEq, ← Text.Utf8.decode_eq_ok_iff]
    cases htext : Text.Utf8.decode content <;> simp [htext]

/-! ## Signatures -/

/-- When a signature matches the files of a directory. -/
inductive Signature.Matches (l : Listing) : Signature NamedGlob → Prop
  | glob {pattern : NamedGlob} {name : String} (hname : name ∈ l.names)
      (haccepts : pattern.glob.accepts name = true) : Matches l (.glob pattern)
  | present {name : String} (hname : name ∈ l.names) : Matches l (.file name none none)
  /-- Where something is asked of its text, the file has to be readable. -/
  | text {name text : String} {contains excludes : Option String} (hname : name ∈ l.names)
      (htext : l.fs.readText (Path.join l.directory name) = .ok text)
      (hcontains : ∀ part, contains = some part → part.toList <:+: text.toList)
      (hexcludes : ∀ part, excludes = some part → ¬ part.toList <:+: text.toList) :
      Matches l (.file name contains excludes)

/-- When a rule matches the files of a directory. -/
def ManagerRule.Matches (l : Listing) (r : ManagerRule NamedGlob) : Prop :=
  ∃ s ∈ r.signatures, s.Matches l

theorem hasPart_iff {text : String} {part : Option String} :
    hasPart text part = true ↔ ∀ p, part = some p → p.toList <:+: text.toList := by
  cases part <;> simp [hasPart, Text.occursIn_iff]

theorem lacksPart_iff {text : String} {part : Option String} :
    lacksPart text part = true ↔ ∀ p, part = some p → ¬ p.toList <:+: text.toList := by
  cases part <;> simp [lacksPart, ← Text.occursIn_iff]

theorem Signature.isMet_iff : s.isMet l = true ↔ s.Matches l := by
  constructor
  · intro h
    cases s with
    | glob pattern =>
      obtain ⟨name, hname, haccepts⟩ := List.any_eq_true.mp h
      exact .glob hname haccepts
    | file name contains excludes =>
      rw [isMet, Bool.and_eq_true, List.contains_iff_mem, Bool.or_eq_true, Bool.and_eq_true,
        Option.isNone_iff_eq_none, Option.isNone_iff_eq_none] at h
      obtain ⟨hname, ⟨rfl, rfl⟩ | htext⟩ := h
      · exact .present hname
      · split at htext
        case h_1 text hread =>
          rw [Bool.and_eq_true, hasPart_iff, lacksPart_iff] at htext
          exact .text hname hread htext.1 htext.2
        case h_2 => cases htext
  · intro h
    cases h with
    | glob hname haccepts => exact List.any_eq_true.mpr ⟨_, hname, haccepts⟩
    | present hname => simp [isMet, hname]
    | text hname htext hcontains hexcludes =>
      simp [isMet, hname, htext, hasPart_iff.mpr hcontains, lacksPart_iff.mpr hexcludes]

theorem ManagerRule.isMet_iff : r.isMet l = true ↔ r.Matches l := by
  simp only [isMet, Matches, List.any_eq_true, Signature.isMet_iff]

/-! ## What rules see -/

/-- Two directories are the same for rules: the same names are listed, and files of whose text a
signature asks something have the same text, if any, in both. -/
structure Listing.SameFor (rules : List (ManagerRule NamedGlob)) (l l' : Listing) : Prop where
  names : ∀ name, name ∈ l.names ↔ name ∈ l'.names
  texts : ∀ r ∈ rules, ∀ name contains excludes, .file name contains excludes ∈ r.signatures →
    contains ≠ none ∨ excludes ≠ none → name ∈ l.names →
      (l.fs.readText (Path.join l.directory name)).toOption =
        (l'.fs.readText (Path.join l'.directory name)).toOption

namespace Listing.SameFor

theorem symm (h : SameFor rules l l') : SameFor rules l' l where
  names name := (h.names name).symm
  texts r hr name contains excludes hs hasked hname :=
    (h.texts r hr name contains excludes hs hasked ((h.names name).mpr hname)).symm

theorem matches_of_matches (h : SameFor rules l l') (hr : r ∈ rules) (hmatches : r.Matches l) :
    r.Matches l' := by
  obtain ⟨s, hs, hmatches⟩ := hmatches
  refine ⟨s, hs, ?_⟩
  cases hmatches with
  | glob hname haccepts => exact .glob ((h.names _).mp hname) haccepts
  | present hname => exact .present ((h.names _).mp hname)
  | @text name text contains excludes hname htext hcontains hexcludes =>
    by_cases hasked : contains ≠ none ∨ excludes ≠ none
    · have hsame := h.texts r hr name contains excludes hs hasked hname
      rw [htext] at hsame
      cases htext' : l'.fs.readText (Path.join l'.directory name) with
      | error fault =>
        rw [htext'] at hsame
        cases hsame
      | ok text' =>
        rw [htext'] at hsame
        obtain rfl : text = text' := Option.some.inj hsame
        exact .text ((h.names _).mp hname) htext' hcontains hexcludes
    · simp only [not_or, not_not] at hasked
      obtain ⟨rfl, rfl⟩ := hasked
      exact .present ((h.names _).mp hname)

theorem isMet_eq (h : SameFor rules l l') (hr : r ∈ rules) : r.isMet l = r.isMet l' := by
  rw [Bool.eq_iff_iff, ManagerRule.isMet_iff, ManagerRule.isMet_iff]
  exact ⟨h.matches_of_matches hr, h.symm.matches_of_matches hr⟩

end Listing.SameFor

/-- A file without text does not have what a signature asks of its text. -/
theorem Signature.not_matches_of_noText {name : String} {contains excludes : Option String}
    (hasked : contains ≠ none ∨ excludes ≠ none)
    (h : ¬ ∃ text : String, l.fs.read (Path.join l.directory name) = .ok text.toUTF8) :
    ¬ (Signature.file name contains excludes).Matches l := by
  intro hmatches
  cases hmatches with
  | present hname => simp at hasked
  | text hname htext hcontains hexcludes =>
    exact h ⟨_, FileSystem.readText_eq_ok_iff.mp htext⟩

/-! ## Managers -/

namespace RuleTable

variable {t t' : RuleTable} {fs : FileSystem} {language : Language} {root directory : String}
  {names : List String}

theorem manager?_eq_some_iff {manager : String} :
    t.manager? fs language root directory names = some manager ↔
      ∃ before r after, t.rules language = before ++ r :: after ∧ r.manager = manager ∧
        r.Matches ⟨fs, Path.join root directory, names⟩ ∧
        ∀ b ∈ before, ¬ b.Matches ⟨fs, Path.join root directory, names⟩ := by
  simp only [manager?, Option.map_eq_some_iff, List.find?_eq_some_iff_append,
    ManagerRule.isMet_iff, Bool.not_eq_true', Bool.eq_false_iff, Ne]
  constructor
  · rintro ⟨r, ⟨hmatches, before, after, hrules, hbefore⟩, hmanager⟩
    exact ⟨before, r, after, hrules, hmanager, hmatches, hbefore⟩
  · rintro ⟨before, r, after, hrules, hmanager, hmatches, hbefore⟩
    exact ⟨r, ⟨hmatches, before, after, hrules, hbefore⟩, hmanager⟩

theorem manager?_eq_none_iff : t.manager? fs language root directory names = none ↔
    ∀ r ∈ t.rules language, ¬ r.Matches ⟨fs, Path.join root directory, names⟩ := by
  simp only [manager?, Option.map_eq_none_iff, List.find?_eq_none, ManagerRule.isMet_iff]

theorem manager?_congr {fs' : FileSystem} {root' directory' : String} {names' : List String}
    (h : Listing.SameFor (t.rules language) ⟨fs, Path.join root directory, names⟩
      ⟨fs', Path.join root' directory', names'⟩) :
    t.manager? fs language root directory names =
      t.manager? fs' language root' directory' names' :=
  congrArg (Option.map _) (List.find?_congr fun _ hr => h.isMet_eq hr)

/-- Rules behind the others do not change an answer. -/
theorem manager?_of_isPrefix (h : t.rules language <+: t'.rules language)
    (hsome : t.manager? fs language root directory names ≠ none) :
    t'.manager? fs language root directory names =
      t.manager? fs language root directory names := by
  obtain ⟨more, hmore⟩ := h
  obtain ⟨manager, hmanager⟩ := Option.ne_none_iff_exists'.mp hsome
  obtain ⟨before, r, after, hrules, hname, hmatches, hbefore⟩ := manager?_eq_some_iff.mp hmanager
  rw [hmanager, manager?_eq_some_iff]
  refine ⟨before, r, after ++ more, ?_, hname, hmatches, hbefore⟩
  rw [← hmore, hrules, List.append_assoc, List.cons_append]

/-- **The first rule that matches names the manager.** There is none if and only if no rule
matches. The answer does not depend on more than the set of names listed and the texts of listed
files of which a signature asks something; rules behind the others do not change it once there is
one; and such a signature does not match where there is no text. -/
theorem manager?_firstMatch (t : RuleTable) (fs : FileSystem) (language : Language)
    (root directory : String) (names : List String) :
    (∀ manager, t.manager? fs language root directory names = some manager ↔
      ∃ before r after, t.rules language = before ++ r :: after ∧ r.manager = manager ∧
        r.Matches ⟨fs, Path.join root directory, names⟩ ∧
        ∀ b ∈ before, ¬ b.Matches ⟨fs, Path.join root directory, names⟩) ∧
    (t.manager? fs language root directory names = none ↔
      ∀ r ∈ t.rules language, ¬ r.Matches ⟨fs, Path.join root directory, names⟩) ∧
    (∀ fs' root' directory' names',
      Listing.SameFor (t.rules language) ⟨fs, Path.join root directory, names⟩
        ⟨fs', Path.join root' directory', names'⟩ →
      t.manager? fs language root directory names =
        t.manager? fs' language root' directory' names') ∧
    (∀ t' : RuleTable, t.rules language <+: t'.rules language →
      t.manager? fs language root directory names ≠ none →
      t'.manager? fs language root directory names =
        t.manager? fs language root directory names) ∧
    ∀ name contains excludes, contains ≠ none ∨ excludes ≠ none →
      (¬ ∃ text : String,
        fs.read (Path.join (Path.join root directory) name) = .ok text.toUTF8) →
      ¬ (Signature.file name contains excludes).Matches
        ⟨fs, Path.join root directory, names⟩ := by
  refine ⟨fun manager => manager?_eq_some_iff, manager?_eq_none_iff, ?_, ?_, ?_⟩
  · intro fs' root' directory' names' hsame
    exact manager?_congr hsame
  · intro t' hprefix hsome
    exact manager?_of_isPrefix hprefix hsome
  · intro name contains excludes hasked hnone
    exact Signature.not_matches_of_noText hasked hnone

end RuleTable

end SourceFacts
