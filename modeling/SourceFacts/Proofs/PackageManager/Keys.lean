import Mathlib.Data.List.Forall2
import SourceFacts.Proofs.Json.Values
import SourceFacts.Proofs.Lists
import SourceFacts.Proofs.PackageManager.FirstMatch

/-!
# Rules under several keys

A table of rules may have several keys for one family of languages, such as `ts` and `typescript`.
The rules of a language are those under the last of them, in order of the keys
(`RuleTable.rules_ofText`). The rules under the others are lost, and the managers that they name
are not found (`RuleTable.rules_ofText_ne`).
-/

namespace SourceFacts

deriving instance DecidableEq for Signature

deriving instance DecidableEq for ManagerRule

namespace RuleTable

variable {t t' : RuleTable} {text : String} {l : Language}
  {drafts : List (String × List (ManagerRule String))}

/-! ## What is written -/

/-- What is written in a table: under each key a list of rules. -/
def written (text : String) : Except ConfigError (Table (List (ManagerRule String))) :=
  match Toml.ofText text with
  | .error _ => .error (.malformedRuleTable "the text is not TOML")
  | .ok j =>
    match Json.asTable (Json.asList ManagerRule.ofJson) j with
    | .error _ => .error (.malformedRuleTable "the text is not a table of rules")
    | .ok drafts => .ok drafts

/-- Whether a key names a family of languages. -/
def names (family : Family) (key : String) : Bool :=
  (Language.ofName? key).map Language.family = some family

/-- What is written under a key, and what is read there: the same rules in the same order, with
their globs read. -/
def Reads (draft : String × List (ManagerRule String))
    (read : String × List (ManagerRule NamedGlob)) : Prop :=
  read.1 = draft.1 ∧ List.Forall₂ (fun d r => d.readGlobs = .ok r) draft.2 read.2

/-- The rules under the keys that name a family. -/
def ownKeys (family : Family) (read : List (String × List (ManagerRule NamedGlob))) :
    List (String × List (ManagerRule NamedGlob)) :=
  read.filter fun k => names family k.1

theorem ofText_eq (text : String) :
    ofText text = written text >>= fun drafts => ofDrafts drafts.entries ⟨[]⟩ := by
  unfold ofText written
  cases Toml.ofText text with
  | error _ => rfl
  | ok j =>
    dsimp only
    cases Json.asTable (Json.asList ManagerRule.ofJson) j <;> rfl

theorem ordered_written {drafts : Table (List (ManagerRule String))}
    (h : written text = .ok drafts) : drafts.Ordered := by
  unfold written at h
  split at h
  · cases h
  · split at h
    · cases h
    · rename_i table htable
      obtain rfl := Except.ok.inj h
      exact Json.ordered_of_asTable htable

theorem forall₂_of_mapM {rules : List (ManagerRule String)} {found : List (ManagerRule NamedGlob)}
    (h : rules.mapM ManagerRule.readGlobs = .ok found) :
    List.Forall₂ (fun d r => d.readGlobs = .ok r) rules found := by
  induction rules generalizing found with
  | nil =>
    cases h
    exact .nil
  | cons d rest ih =>
    simp only [List.mapM_cons, Json.bind_eq_ok_iff] at h
    obtain ⟨r, hr, others, hothers, hfound⟩ := h
    cases hfound
    exact .cons hr (ih hothers)

/-! ## What is read -/

theorem rules_cons (family : Family) (rules : List (ManagerRule NamedGlob))
    (families : List (Family × List (ManagerRule NamedGlob))) (l : Language) :
    (RuleTable.mk ((family, rules) :: families)).rules l =
      if family = l.family then rules else (RuleTable.mk families).rules l := by
  cases family <;> cases l <;> rfl

/-- Every key is read, and the last one that names a family counts. -/
theorem rules_ofDrafts (h : ofDrafts drafts t = .ok t') :
    ∃ read, List.Forall₂ Reads drafts read ∧ ∀ l,
      t'.rules l = ((ownKeys l.family read).getLast?.map (·.2)).getD (t.rules l) := by
  induction drafts generalizing t with
  | nil =>
    cases h
    exact ⟨[], .nil, fun _ => rfl⟩
  | cons draft rest ih =>
    obtain ⟨key, rules⟩ := draft
    unfold ofDrafts at h
    split at h
    case h_1 => cases h
    case h_2 l' hname =>
      obtain ⟨found, hfound, hrest⟩ := Json.bind_eq_ok_iff.mp h
      obtain ⟨read, hread, hrules⟩ := ih hrest
      refine ⟨(key, found) :: read, .cons ⟨rfl, forall₂_of_mapM hfound⟩ hread, fun l => ?_⟩
      have hnames : names l.family key = decide (l'.family = l.family) := by
        simp [names, hname]
      rw [hrules, rules_cons, ownKeys, ownKeys, List.filter_cons, hnames]
      by_cases hfamily : l'.family = l.family
      · simp only [hfamily, decide_true, if_true, Lists.getLast?_cons_getD]
      · simp only [hfamily, decide_false, if_false, Bool.false_eq_true]

/-- Of some lists, the last has all that is in any of them, each once, if and only if the others
are empty. -/
theorem keeps_iff {α β : Type} (lists : List (α × List β)) :
    ((((lists.getLast?.map (·.2)).getD []).Perm (lists.flatMap (·.2))) ∧
      ∀ k ∈ lists, k.2.Sublist ((lists.getLast?.map (·.2)).getD [])) ↔
    ∀ k ∈ lists.dropLast, k.2 = [] := by
  rcases List.eq_nil_or_concat lists with rfl | ⟨front, last, rfl⟩
  · simp
  · rw [List.concat_eq_append, List.getLast?_concat, List.dropLast_concat, List.flatMap_append]
    simp only [Option.map_some, Option.getD_some, List.flatMap_singleton]
    constructor
    · rintro ⟨hperm, -⟩ k hk
      have hlength := hperm.length_eq
      rw [List.length_append] at hlength
      have hnone : front.flatMap (·.2) = [] := List.length_eq_zero_iff.mp (by omega)
      exact List.flatMap_eq_nil_iff.mp hnone k hk
    · intro hempty
      rw [List.flatMap_eq_nil_iff.mpr hempty, List.nil_append]
      refine ⟨.refl _, fun k hk => ?_⟩
      rcases List.mem_append.mp hk with hk | hk
      · rw [hempty k hk]
        exact List.nil_sublist _
      · obtain rfl := List.mem_singleton.mp hk
        exact List.Sublist.refl _

/-- **The last key of a family counts.** What is written in a table is read, key by key, in order
of the keys. The rules of a language are those under the last of the keys that name its family, so
that they hold all rules under these keys, each once and in order, if and only if there are none
under the others; and only managers named under the last key are found. -/
theorem rules_ofText (h : ofText text = .ok t) :
    ∃ drafts read, written text = .ok drafts ∧ drafts.Ordered ∧
      List.Forall₂ Reads drafts.entries read ∧ ∀ l,
        let own := ownKeys l.family read
        t.rules l = (own.getLast?.map (·.2)).getD [] ∧
        (((t.rules l).Perm (own.flatMap (·.2)) ∧ ∀ k ∈ own, k.2.Sublist (t.rules l)) ↔
          ∀ k ∈ own.dropLast, k.2 = []) ∧
        ∀ fs root directory names manager,
          t.manager? fs l root directory names = some manager →
            ∃ k ∈ own.getLast?, ∃ r ∈ k.2, r.manager = manager := by
  rw [ofText_eq] at h
  obtain ⟨drafts, hdrafts, hread⟩ := Json.bind_eq_ok_iff.mp h
  obtain ⟨read, hreads, hrules⟩ := rules_ofDrafts hread
  refine ⟨drafts, read, hdrafts, ordered_written hdrafts, hreads, fun l => ?_⟩
  have hlast : t.rules l = ((ownKeys l.family read).getLast?.map (·.2)).getD [] := hrules l
  refine ⟨hlast, ?_, fun fs root directory names manager hmanager => ?_⟩
  · rw [hlast]
    exact keeps_iff _
  · obtain ⟨before, r, after, hsplit, hname, -⟩ := manager?_eq_some_iff.mp hmanager
    have hr : r ∈ t.rules l := hsplit ▸ List.mem_append_right _ List.mem_cons_self
    rw [hlast] at hr
    cases hkey : (ownKeys l.family read).getLast? with
    | none =>
      rw [hkey] at hr
      cases hr
    | some k =>
      rw [hkey] at hr
      exact ⟨k, rfl, r, hr, hname⟩

/-- A table with two keys for one family. -/
def twoKeys : String :=
  "[[ts]]\nmanager = \"bun\"\nsignatures = [\x7b file = \"bun.lock\" \x7d]\n\n" ++
  "[[typescript]]\nmanager = \"npm\"\nsignatures = [\x7b file = \"package.json\" \x7d]\n"

theorem written_twoKeys : written twoKeys = .ok
    ⟨[("ts", [⟨"bun", [present "bun.lock"]⟩]),
      ("typescript", [⟨"npm", [present "package.json"]⟩])]⟩ := by
  decide +kernel

theorem ofText_twoKeys : ofText twoKeys = .ok
    ⟨[(.typescript, [⟨"npm", [.file "package.json" none none]⟩]),
      (.typescript, [⟨"bun", [.file "bun.lock" none none]⟩])]⟩ := by
  rw [ofText_eq, written_twoKeys]
  rfl

theorem rules_ofText_lastKey : ∃ t drafts read, ofText twoKeys = .ok t ∧
    written twoKeys = .ok drafts ∧ List.Forall₂ Reads drafts.entries read ∧
      t.rules .tsx = ((ownKeys .typescript read).getLast?.map (·.2)).getD [] := by
  obtain ⟨drafts, read, hwritten, -, hreads, hrules⟩ := rules_ofText ofText_twoKeys
  exact ⟨_, drafts, read, ofText_twoKeys, hwritten, hreads, (hrules .tsx).1⟩

/-- A rule under the first of two keys is lost, and what it names is not found. -/
theorem rules_ofText_ne :
    names .typescript "ts" = true ∧ ∃ t drafts, ofText twoKeys = .ok t ∧
      written twoKeys = .ok drafts ∧
      drafts.get? "ts" = some [⟨"bun", [present "bun.lock"]⟩] ∧
      t.rules .typescript = [⟨"npm", [.file "package.json" none none]⟩] ∧
      t.manager? ⟨.empty, []⟩ .typescript "/" "." ["bun.lock"] = none :=
  ⟨by decide, _, _, ofText_twoKeys, written_twoKeys, by decide, rfl, rfl⟩

end RuleTable

end SourceFacts
