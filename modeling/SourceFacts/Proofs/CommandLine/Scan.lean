import SourceFacts.CommandLine
import SourceFacts.Proofs.Files.Order
import SourceFacts.Proofs.Files.Paths
import SourceFacts.Proofs.Text.ByteOrder

/-!
# What a scan covers

A scan of a directory finds all source files below it but those in directories that are skipped,
each once and in the order of the bytes of their paths, part by part (`Command.Covers`). It reports
each of them once, among the files or among the failures, and keeps their order in both lists
(`Command.Reports`). The tree is any tree whose names can be those of files
(`Command.scanned_covers`).

The directories are gone through in order and pruned on the way. So what is kept is first told by
the ways from the root (`Command.mem_scannedWays`), and order is that of ways; paths come in only
afterwards, since a path that is made of names splits into these names again.
-/

namespace SourceFacts

namespace Text

/-- Ways in order are in the order of the bytes of their names. -/
theorem map_bytes_lt {xs ys : List String} (h : xs < ys) : xs.map bytes < ys.map bytes := by
  induction (h : List.Lex _ xs ys) with
  | nil => exact List.nil_lt_cons _ _
  | cons _ ih => exact List.cons_lt_cons_iff.mpr (Or.inr ⟨rfl, ih⟩)
  | rel hlt => exact List.cons_lt_cons_iff.mpr (Or.inl (bytes_lt_bytes hlt))

end Text

namespace Engine

/-- Each file is analysed by itself, with what the cache has become by then. -/
theorem forall₂_analyzeFiles (e : Engine) (fs : FileSystem) (paths : List String)
    (c : QueryCache) :
    List.Forall₂ (fun path r => ∃ c', r.2 = (e.analyzeFile fs path c').1) paths
      (e.analyzeFiles fs paths c).1 := by
  induction paths generalizing c with
  | nil => exact .nil
  | cons path rest ih => exact .cons ⟨c, rfl⟩ (ih (e.analyzeFile fs path c).2)

end Engine

namespace Command

open FileTree

variable {entries : List (String × FileTree)} {way : List String} {content : ByteArray}

/-! ## What is found -/

/-- A way leads to a source file that is scanned: to a regular file with a known extension, through
directories none of which is skipped. -/
structure IsSource (t : FileTree) (way : List String) : Prop where
  file : ∃ content, t.at? way = some (.file content)
  scanned : ∀ name ∈ way.dropLast, name ∉ skippedDirectories
  supported : ∃ name extension l, way.getLast? = some name ∧
    Path.nameExtension? name = some extension ∧ Language.ofExtension? extension = some l

/-- The paths that are found in a tree are those of its source files, each once and in order. -/
structure Covers (t : FileTree) (found : List String) : Prop where
  mem_iff : ∀ p, p ∈ found ↔ ∃ way, IsSource t way ∧ p = way.foldl Path.join ""
  nodup : found.Nodup
  /-- The way to a file can be read off its path. -/
  parts : ∀ way, IsSource t way → Path.parts (way.foldl Path.join "") = way
  ordered : found.Pairwise fun p q =>
    (Path.parts p).map Text.bytes < (Path.parts q).map Text.bytes

theorem below_cons_way_iff {keep : String → FileTree → Bool} {name : String} {target : FileTree} :
    Below keep entries (name :: way) target ↔ ∃ t, (name, t) ∈ entries ∧ keep name t = true ∧
      (way = [] ∧ t = target ∨ ∃ inner, t = directory inner ∧ Below keep inner way target) := by
  constructor
  · intro h
    cases h with
    | entry hentry hkeep => exact ⟨target, hentry, hkeep, Or.inl ⟨rfl, rfl⟩⟩
    | inside hentry hkeep hinner => exact ⟨_, hentry, hkeep, Or.inr ⟨_, rfl, hinner⟩⟩
  · rintro ⟨t, hentry, hkeep, ⟨rfl, rfl⟩ | ⟨inner, rfl, hinner⟩⟩
    · exact .entry hentry hkeep
    · exact .inside hentry hkeep hinner

/-- Files that are scanned are those with no skipped directory on the way. -/
theorem below_isScanned_iff (h : (directory entries).Ordered) :
    Below isScanned entries way (file content) ↔
      (directory entries).at? way = some (file content) ∧
        ∀ name ∈ way.dropLast, name ∉ skippedDirectories := by
  induction way generalizing entries with
  | nil =>
    refine iff_of_false nofun fun hat => ?_
    cases hat.1
  | cons name way ih =>
    simp only [below_cons_way_iff, at?_cons_eq_some_iff, entry?_eq_some_iff h]
    constructor
    · rintro ⟨t, hentry, hkeep, ⟨rfl, rfl⟩ | ⟨inner, rfl, hinner⟩⟩
      · exact ⟨⟨file content, hentry, rfl⟩, List.forall_mem_nil _⟩
      · have hordered : (directory inner).Ordered := h.of_mem hentry
        obtain ⟨hat, hskipped⟩ := (ih hordered).mp hinner
        have hne : way ≠ [] := by
          rintro rfl
          cases hat
        have hname : name ∉ skippedDirectories := by simpa [isScanned] using hkeep
        refine ⟨⟨directory inner, hentry, hat⟩, ?_⟩
        rw [List.dropLast_cons_of_ne_nil hne]
        exact List.forall_mem_cons.mpr ⟨hname, hskipped⟩
    · rintro ⟨⟨t, hentry, hat⟩, hskipped⟩
      by_cases hne : way = []
      · subst hne
        obtain rfl : t = file content := Option.some.inj hat
        exact ⟨file content, hentry, rfl, Or.inl ⟨rfl, rfl⟩⟩
      · obtain ⟨first, more, rfl⟩ := List.exists_cons_of_ne_nil hne
        cases t with
        | file bytes => cases hat
        | other => cases hat
        | directory inner =>
          rw [List.dropLast_cons_of_ne_nil hne] at hskipped
          obtain ⟨hname, hskipped⟩ := List.forall_mem_cons.mp hskipped
          have hkeep : isScanned name (directory inner) = true := by simpa [isScanned] using hname
          have hordered : (directory inner).Ordered := h.of_mem hentry
          exact ⟨directory inner, hentry, hkeep,
            Or.inr ⟨inner, rfl, (ih hordered).mpr ⟨hat, hskipped⟩⟩⟩

/-- The ways to the files of a directory that are scanned. -/
def scannedWays (entries : List (String × FileTree)) : List (List String) :=
  (waysIn isScanned (allInOrder entries)).map (·.1)

theorem mem_scannedWays : way ∈ scannedWays entries ↔
    (∃ content, (directory entries).at? way = some (file content)) ∧
      ∀ name ∈ way.dropLast, name ∉ skippedDirectories := by
  have hordered : (directory (allInOrder entries)).Ordered := by
    have hinOrder := ordered_inOrder (directory entries)
    rwa [inOrder] at hinOrder
  have hat : ∀ way content, (directory (allInOrder entries)).at? way = some (file content) ↔
      (directory entries).at? way = some (file content) := by
    intro way content
    have hcommutes := at?_inOrder (directory entries) way
    rw [inOrder] at hcommutes
    rw [hcommutes, Option.map_eq_some_iff]
    simp [inOrder_eq_file_iff]
  simp only [scannedWays, List.mem_map, Prod.exists, mem_waysIn, below_isScanned_iff hordered, hat]
  constructor
  · rintro ⟨way, content, ⟨hat, hskipped⟩, rfl⟩
    exact ⟨⟨content, hat⟩, hskipped⟩
  · rintro ⟨⟨content, hat⟩, hskipped⟩
    exact ⟨way, content, ⟨hat, hskipped⟩, rfl⟩

theorem pairwise_scannedWays (entries : List (String × FileTree)) :
    (scannedWays entries).Pairwise (· < ·) := by
  obtain ⟨hnames, htrees⟩ := ordered_allInOrder entries
  exact List.pairwise_map.mpr (pairwise_waysIn isScanned _ hnames htrees)

theorem sourcesAt_directory (names : List String) (entries : List (String × FileTree)) :
    sourcesAt names (directory entries) = (FileSystem.absolute names,
      ((scannedWays entries).map fun way => way.foldl Path.join "").filter fun p =>
        ((Path.extension? p).bind Language.ofExtension?).isSome) := by
  rw [sourcesAt]
  · rw [inOrder, filesAt, filesIn_eq_map, List.map_map, scannedWays, List.map_map]
    rfl
  · exact nofun

theorem isName_of_mem_scannedWays (h : ∀ name ∈ (directory entries).names, Path.IsName name)
    (hway : way ∈ scannedWays entries) : ∀ name ∈ way, Path.IsName name := by
  obtain ⟨⟨content, hat⟩, -⟩ := mem_scannedWays.mp hway
  exact fun name hname => h name (mem_names_of_at? hat name hname)

theorem ne_nil_of_mem_scannedWays (hway : way ∈ scannedWays entries) : way ≠ [] := by
  rintro rfl
  obtain ⟨⟨content, hat⟩, -⟩ := mem_scannedWays.mp hway
  cases hat

/-- The extension of a path is that of the last name on the way. -/
theorem isSome_ofExtension?_iff (hnames : ∀ name ∈ way, Path.IsName name) (hne : way ≠ []) :
    ((Path.extension? (way.foldl Path.join "")).bind Language.ofExtension?).isSome = true ↔
      ∃ name extension l, way.getLast? = some name ∧
        Path.nameExtension? name = some extension ∧ Language.ofExtension? extension = some l := by
  obtain ⟨name, hlast⟩ := Option.isSome_iff_exists.mp (List.getLast?_isSome.mpr hne)
  rw [Path.extension?_foldl_join hnames hlast, hlast, Option.isSome_iff_exists]
  constructor
  · rintro ⟨l, hl⟩
    obtain ⟨extension, hextension, hl⟩ := Option.bind_eq_some_iff.mp hl
    exact ⟨name, extension, l, rfl, hextension, hl⟩
  · rintro ⟨_, extension, l, hname, hextension, hl⟩
    obtain rfl := Option.some.inj hname
    exact ⟨l, Option.bind_eq_some_iff.mpr ⟨extension, hextension, hl⟩⟩

theorem isSource_iff (h : ∀ name ∈ (directory entries).names, Path.IsName name) :
    IsSource (directory entries) way ↔ way ∈ scannedWays entries ∧
      ((Path.extension? (way.foldl Path.join "")).bind Language.ofExtension?).isSome = true := by
  have hsupported : ∀ hway : way ∈ scannedWays entries, _ := fun hway =>
    isSome_ofExtension?_iff (isName_of_mem_scannedWays h hway) (ne_nil_of_mem_scannedWays hway)
  constructor
  · intro hsource
    have hway : way ∈ scannedWays entries :=
      mem_scannedWays.mpr ⟨hsource.file, hsource.scanned⟩
    exact ⟨hway, (hsupported hway).mpr hsource.supported⟩
  · rintro ⟨hway, hextension⟩
    obtain ⟨hfile, hscanned⟩ := mem_scannedWays.mp hway
    exact ⟨hfile, hscanned, (hsupported hway).mp hextension⟩

theorem ordered_sourcesAt (names : List String)
    (h : ∀ name ∈ (directory entries).names, Path.IsName name) :
    (sourcesAt names (directory entries)).2.Pairwise fun p q =>
      (Path.parts p).map Text.bytes < (Path.parts q).map Text.bytes := by
  rw [sourcesAt_directory]
  refine List.Pairwise.filter _ (List.pairwise_map.mpr ?_)
  refine (pairwise_scannedWays entries).imp_of_mem fun {a b} ha hb hlt => ?_
  rw [Path.parts_foldl_join (isName_of_mem_scannedWays h ha),
    Path.parts_foldl_join (isName_of_mem_scannedWays h hb)]
  exact Text.map_bytes_lt hlt

theorem covers_sourcesAt (names : List String)
    (h : ∀ name ∈ (directory entries).names, Path.IsName name) :
    Covers (directory entries) (sourcesAt names (directory entries)).2 where
  mem_iff p := by
    rw [sourcesAt_directory, List.mem_filter, List.mem_map]
    constructor
    · rintro ⟨⟨way, hway, rfl⟩, hsupported⟩
      exact ⟨way, (isSource_iff h).mpr ⟨hway, hsupported⟩, rfl⟩
    · rintro ⟨way, hsource, rfl⟩
      obtain ⟨hway, hsupported⟩ := (isSource_iff h).mp hsource
      exact ⟨⟨way, hway, rfl⟩, hsupported⟩
  nodup := by
    refine (ordered_sourcesAt names h).imp fun hlt => ?_
    rintro rfl
    exact List.lt_irrefl _ hlt
  parts way hsource :=
    Path.parts_foldl_join (isName_of_mem_scannedWays h ((isSource_iff h).mp hsource).1)
  ordered := ordered_sourcesAt names h

/-! ## What is reported -/

/-- The entry of a file that could be analysed. -/
def IsFileEntry (r : String × Except EngineError FileFacts) (entry : Json) : Prop :=
  ∃ facts, r.2 = .ok facts ∧ entry = { facts with path := reported r.1 }.toJson

/-- The entry of a file that could not be analysed. -/
def IsFailureEntry (r : String × Except EngineError FileFacts) (entry : Json) : Prop :=
  ∃ fault, r.2 = .error fault ∧
    entry = .object [("path", .string (reported r.1)), ("error", .string fault.message)]

/-- Each path that is found has one result, that of the analysis of its file, and each result has
one entry: among the files if the analysis went well, and otherwise among the failures. -/
inductive Reports (fs : FileSystem) (e : Engine) (base : String) (found : List String)
    (files failures : List Json) : Prop where
  | intro (results : List (String × Except EngineError FileFacts))
      (paths : results.map (·.1) = found)
      (analyses : ∀ r ∈ results, ∃ c, r.2 = (e.analyzeFile fs (Path.join base r.1) c).1)
      (files_of : List.Forall₂ IsFileEntry (results.filter (·.2.isOk)) files)
      (failures_of : List.Forall₂ IsFailureEntry (results.filter (!·.2.isOk)) failures)

/-- Of each result one entry is made. -/
theorem forall₂_scanReport (root : String)
    (results : List (String × Except EngineError FileFacts)) :
    ∃ files failures,
      scanReport root results = .object [("root", .string root), ("files", .list files),
        ("failures", .list failures)] ∧
      List.Forall₂ IsFileEntry (results.filter (·.2.isOk)) files ∧
      List.Forall₂ IsFailureEntry (results.filter (!·.2.isOk)) failures := by
  refine ⟨_, _, rfl, Lists.forall₂_filter_filterMap ?_ ?_ results,
    Lists.forall₂_filter_filterMap ?_ ?_ results⟩
  · rintro ⟨path, facts | fault⟩ <;> rfl
  · rintro ⟨path, fault | facts⟩ entry hentry
    · cases hentry
    · exact ⟨facts, rfl, (Option.some.inj hentry).symm⟩
  · rintro ⟨path, facts | fault⟩ <;> rfl
  · rintro ⟨path, fault | facts⟩ entry hentry
    · exact ⟨fault, rfl, (Option.some.inj hentry).symm⟩
    · cases hentry

theorem scanned_directory (fs : FileSystem) (e : Engine) (path : String) (names : List String)
    (hresolve : fs.resolve path = .ok (names, .directory entries)) :
    ∃ files failures,
      scanned fs e path = .ok (.object [("root", .string (FileSystem.absolute names)),
        ("files", .list files), ("failures", .list failures)]) ∧
      Reports fs e (FileSystem.absolute names) (sourcesAt names (directory entries)).2 files
        failures := by
  let base := FileSystem.absolute names
  let found := (sourcesAt names (directory entries)).2
  let results := (e.analyzeFiles fs (found.map (Path.join base)) .empty).1
  have hscanned : scanned fs e path = .ok (scanReport base (found.zip (results.map (·.2)))) := by
    have hbase : (sourcesAt names (directory entries)).1 = base := by rw [sourcesAt_directory]
    simp only [scanned, hresolve, hbase]
    rfl
  have hanalyses : List.Forall₂
      (fun p r => ∃ c, r = (e.analyzeFile fs (Path.join base p) c).1) found
      (results.map (·.2)) := by
    rw [List.forall₂_map_right_iff]
    exact List.forall₂_map_left_iff.mp (e.forall₂_analyzeFiles fs _ .empty)
  obtain ⟨files, failures, hreport, hfiles, hfailures⟩ :=
    forall₂_scanReport base (found.zip (results.map (·.2)))
  refine ⟨files, failures, ?_, .intro _ ?_ ?_ hfiles hfailures⟩
  · rw [hscanned, hreport]
  · exact List.map_fst_zip (le_of_eq hanalyses.length_eq)
  · rintro ⟨p, r⟩ hr
    exact List.forall₂_zip hanalyses hr

/-- **What a scan covers.** In every directory whose names can be those of files, a scan finds all
regular files with a known extension that are in no skipped directory, whatever the directory that
is scanned is called itself. It finds each of them once, in the order of the bytes of their paths,
part by part. Each has one entry in the report, among the files or among the failures, and both
lists keep the order. -/
theorem scanned_covers (fs : FileSystem) (e : Engine) (path : String) (names : List String)
    (entries : List (String × FileTree))
    (hresolve : fs.resolve path = .ok (names, .directory entries))
    (hnames : ∀ name ∈ (directory entries).names, Path.IsName name) :
    Covers (directory entries) (sourcesAt names (directory entries)).2 ∧
      ∃ files failures,
        scanned fs e path = .ok (.object [("root", .string (FileSystem.absolute names)),
          ("files", .list files), ("failures", .list failures)]) ∧
        Reports fs e (FileSystem.absolute names) (sourcesAt names (directory entries)).2 files
          failures :=
  ⟨covers_sourcesAt names hnames, scanned_directory fs e path names hresolve⟩

/-- A directory that is out of order: with a file that has no text, one in a directory that is
skipped, a link, and a file in no known language. -/
def mixedEntries : List (String × FileTree) :=
  [("b.py", .file "x = 1".toUTF8), ("link.py", .other),
    ("dist", .directory [("c.py", .file "y = 2".toUTF8)]),
    ("a", .directory [("z.ts", .file ⟨#[0]⟩), ("notes.md", .file "".toUTF8)])]

/-- The directory is scanned although it has a name under which others are skipped. -/
theorem scanned_covers_mixed :
    let e : Engine :=
      { pythonTemplates := .error (.unsupportedLanguage "python")
        typescriptTemplates := .error (.unsupportedLanguage "typescript")
        modelQueries := [], catalog := .empty, rules := ⟨[]⟩ }
    let fs : FileSystem := ⟨.directory [("build", .directory mixedEntries)], []⟩
    fs.resolve "/build" = .ok (["build"], .directory mixedEntries) ∧
      (∀ name ∈ (directory mixedEntries).names, Path.IsName name) ∧
      (sourcesAt ["build"] (directory mixedEntries)).2 = ["a/z.ts", "b.py"] ∧
      Covers (directory mixedEntries) (sourcesAt ["build"] (directory mixedEntries)).2 ∧
      ∃ files failures,
        scanned fs e "/build" = .ok (.object [("root", .string "/build"), ("files", .list files),
          ("failures", .list failures)]) ∧
        Reports fs e "/build" ["a/z.ts", "b.py"] files failures := by
  intro e fs
  have hresolve : fs.resolve "/build" = .ok (["build"], .directory mixedEntries) := rfl
  have hnames : ∀ name ∈ (directory mixedEntries).names, Path.IsName name := by decide
  have hfound : (sourcesAt ["build"] (directory mixedEntries)).2 = ["a/z.ts", "b.py"] := by decide
  obtain ⟨hcovers, hreports⟩ :=
    scanned_covers fs e "/build" ["build"] mixedEntries hresolve hnames
  rw [hfound] at hreports
  exact ⟨hresolve, hnames, hfound, hcovers, hreports⟩

end Command

end SourceFacts
