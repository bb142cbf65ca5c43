import SourceFacts.Proofs.Catalog.Accounting
import SourceFacts.Proofs.Files.Below

/-!
# What becomes of catalog files

A load takes the entries of its files in order, and refuses a file as a whole if it is no text, no
catalog, or one of an unknown language. It accounts for all of them (`accounts_of_load?`). So
whatever is loaded and merged, nothing is lost silently, and the catalog that comes of it is
well-formed (`reached_accounted`).
-/

namespace SourceFacts

namespace Catalog

/-! ## Files -/

/-- A file as a load sees it: the entries that it has for a family, unless it is of no use. -/
structure Document where
  path : String
  entries? : Option (Family × List Feature)

/-- What a file contributes. -/
def Document.items (d : Document) : List Item :=
  match d.entries? with
  | none => [.unusable d.path]
  | some (family, fs) => fs.map (.entry family)

/-- The entries of a file, with its library where they name none, if its language is known. -/
def entriesOf? (file : CatalogFile) : Option (Family × List Feature) :=
  (Language.ofName? file.language).map fun l => (l.family, file.entries)

/-- The entries of a file, if its content is text, the text is a catalog and the language is
known. -/
def readEntries? (content : ByteArray) : Option (Family × List Feature) :=
  match Text.Utf8.decode content with
  | .error _ => none
  | .ok text =>
    match Json.decode CatalogFile.ofJson text with
    | .error _ => none
    | .ok file => entriesOf? file

theorem accounts_empty : Accounts [] .empty where
  stored family := by cases family <;> rfl
  refused := .nil

namespace Accounts

variable {items : List Item} {l : CatalogLoad}

theorem refuseFile (h : Accounts items l) (path reason : String) :
    Accounts (items ++ [.unusable path]) (l.refuse (.malformedCatalog path reason)) :=
  h.refuse rfl ⟨reason, rfl⟩

theorem addFile (h : Accounts items l) (path : String) (file : CatalogFile) :
    Accounts (items ++ (Document.mk path (entriesOf? file)).items) (l.addFile path file) := by
  cases hlanguage : Language.ofName? file.language with
  | none =>
    simp only [Document.items, entriesOf?, CatalogLoad.addFile, hlanguage, Option.map_none]
    exact h.refuseFile path _
  | some language =>
    simp only [Document.items, entriesOf?, CatalogLoad.addFile, hlanguage, Option.map_some]
    exact h.addEntries path fun g hg => absurd hg List.not_mem_nil

theorem addContent (h : Accounts items l) (path : String) (content : ByteArray) :
    Accounts (items ++ (Document.mk path (readEntries? content)).items)
      (l.addContent path content) := by
  cases htext : Text.Utf8.decode content with
  | error fault =>
    simp only [Document.items, readEntries?, CatalogLoad.addContent, htext]
    exact h.refuseFile path _
  | ok text =>
    cases hfile : Json.decode CatalogFile.ofJson text with
    | error misfit =>
      simp only [Document.items, readEntries?, CatalogLoad.addContent, CatalogLoad.addText, htext,
        hfile]
      exact h.refuseFile path _
    | ok file =>
      simp only [readEntries?, CatalogLoad.addContent, CatalogLoad.addText, htext, hfile]
      exact h.addFile path file

/-- What holds of each file holds of all. -/
theorem addAll {α : Type} (add : α → CatalogLoad → CatalogLoad) (document : α → Document)
    (hadd : ∀ items l x, Accounts items l → Accounts (items ++ (document x).items) (add x l))
    (h : Accounts items l) (xs : List α) :
    Accounts (items ++ (xs.map document).flatMap Document.items)
      (xs.foldl (fun l x => add x l) l) := by
  induction xs generalizing items l with
  | nil => simpa using h
  | cons x xs ih =>
    rw [List.map_cons, List.flatMap_cons, ← List.append_assoc]
    exact ih (hadd items l x h)

end Accounts

end Catalog

/-! ## Loads -/

/-- Where a catalog is loaded from. -/
inductive CatalogSource where
  | builtin
  | directory (fs : FileSystem) (path : String)

namespace CatalogSource

open Catalog

/-- What is loaded. -/
def load? : CatalogSource → Except ConfigError CatalogLoad
  | .builtin => .ok Catalog.builtin
  | .directory fs path => Catalog.loadDirectory fs path

/-- The JSON files below a directory, in the order in which they are loaded. -/
def jsonFiles (path : String) (entries : List (String × FileTree)) : List (String × ByteArray) :=
  (FileTree.filesIn (fun _ _ => true) path entries).filter fun (p, _) =>
    Path.extension? p == some "json"

/-- The files of a load. -/
def documents : CatalogSource → List Document
  | .builtin => BuiltinCatalog.files.map fun file => ⟨file.library, entriesOf? file⟩
  | .directory fs path =>
    match fs.resolve path with
    | .ok (_, .directory entries) =>
      (jsonFiles path entries).map fun (p, content) => ⟨p, readEntries? content⟩
    | _ => []

/-- What the files of a load contribute. -/
def items (s : CatalogSource) : List Item := s.documents.flatMap Document.items

/-- Below a directory the JSON files are those at the end of some way down. -/
theorem mem_jsonFiles {path p : String} {entries : List (String × FileTree)}
    {content : ByteArray} : (p, content) ∈ jsonFiles path entries ↔
      Path.extension? p = some "json" ∧ ∃ names,
        FileTree.Below (fun _ _ => true) entries names (.file content) ∧
          p = names.foldl Path.join path := by
  rw [jsonFiles, List.mem_filter, FileTree.mem_filesIn, and_comm, beq_iff_eq]

theorem load?_directory {fs : FileSystem} {path : String} {names : List String}
    {entries : List (String × FileTree)} (h : fs.resolve path = .ok (names, .directory entries)) :
    (directory fs path).load? =
      .ok ((jsonFiles path entries).foldl (fun l x => l.addContent x.1 x.2) .empty) := by
  simp only [load?, Catalog.loadDirectory, h]
  rfl

theorem exists_resolve_of_load? {fs : FileSystem} {path : String} {l : CatalogLoad}
    (h : (directory fs path).load? = .ok l) :
    ∃ names entries, fs.resolve path = .ok (names, .directory entries) := by
  simp only [load?, Catalog.loadDirectory] at h
  split at h
  · rename_i names entries hresolve
    exact ⟨names, entries, hresolve⟩
  · cases h

/-- A load accounts for what its files contribute. -/
theorem accounts_of_load? {s : CatalogSource} {l : CatalogLoad} (h : s.load? = .ok l) :
    Accounts s.items l := by
  cases s with
  | builtin =>
    let add (file : CatalogFile) (l : CatalogLoad) : CatalogLoad := l.addFile file.library file
    let document (file : CatalogFile) : Document := ⟨file.library, entriesOf? file⟩
    have hall := accounts_empty.addAll add document
      (fun _ _ file h => h.addFile file.library file) BuiltinCatalog.files
    have hbuiltin : Catalog.builtin = l := Except.ok.inj h
    rw [List.nil_append] at hall
    rw [← hbuiltin, items, documents, Catalog.builtin]
    exact hall
  | directory fs path =>
    let add (x : String × ByteArray) (l : CatalogLoad) : CatalogLoad := l.addContent x.1 x.2
    let document (x : String × ByteArray) : Document := ⟨x.1, readEntries? x.2⟩
    obtain ⟨names, entries, hresolve⟩ := exists_resolve_of_load? h
    have hall := accounts_empty.addAll add document
      (fun _ _ x h => h.addContent x.1 x.2) (jsonFiles path entries)
    rw [List.nil_append] at hall
    rw [load?_directory hresolve] at h
    rw [← Except.ok.inj h, items, documents, hresolve]
    exact hall

/-- Merges what is loaded. -/
def mergeInto (s : CatalogSource) (c : Catalog) : Catalog :=
  match s.load? with
  | .ok l => (c.merge l).catalog
  | .error _ => c

/-- The catalog that comes of loads, one merged after the other. -/
def reached (sources : List CatalogSource) : Catalog :=
  sources.foldl (fun c s => s.mergeInto c) .empty

theorem wellFormed_mergeInto {c : Catalog} (h : c.WellFormed) (s : CatalogSource) :
    (s.mergeInto c).WellFormed := by
  unfold mergeInto
  split
  · rename_i l hl
    exact h.merge (accounts_of_load? hl).wellFormed
  · exact h

theorem wellFormed_reached (sources : List CatalogSource) : (reached sources).WellFormed := by
  induction sources using List.reverseRecOn with
  | nil => exact wellFormed_empty
  | append_singleton sources s ih =>
    rw [reached, List.foldl_append]
    exact wellFormed_mergeInto ih s

/-- **Nothing is lost without a word.** Whatever is loaded and merged, the catalog has no entry
twice within a family and no feature with a fault. A load of a directory takes every JSON file
below it. Of each load, the files of no use are refused, and so is every entry of the others that
has a fault or is not the first one without fault in its family, each once and in order; the other
entries are stored. A merge keeps what there is, appends what is new, and refuses the rest. -/
theorem reached_accounted (sources : List CatalogSource) :
    (reached sources).WellFormed ∧
    (∀ fs path names entries, fs.resolve path = .ok (names, .directory entries) →
      (∃ l, (directory fs path).load? = .ok l) ∧
      ∀ d, d ∈ (directory fs path).documents ↔ ∃ way content,
        FileTree.Below (fun _ _ => true) entries way (.file content) ∧
          Path.extension? (way.foldl Path.join path) = some "json" ∧
          d = ⟨way.foldl Path.join path, readEntries? content⟩) ∧
    ∀ (s : CatalogSource) (l : CatalogLoad), s.load? = .ok l →
      Accounts (s.documents.flatMap Document.items) l ∧
      (∀ family, ((reached sources).merge l).catalog.ofFamily family =
        (reached sources).ofFamily family ++
          (l.catalog.ofFamily family).filter fun f => !(reached sources).has family f) ∧
      ((reached sources).merge l).refused =
        l.refused ++ [Family.python, .typescript].flatMap fun family =>
          ((l.catalog.ofFamily family).filter ((reached sources).has family)).map
            (taken family) := by
  refine ⟨wellFormed_reached sources, fun fs path names entries hresolve => ⟨?_, fun d => ?_⟩,
    fun s l hl => ⟨accounts_of_load? hl, ?_⟩⟩
  · exact ⟨_, load?_directory hresolve⟩
  · simp only [documents, hresolve, List.mem_map, Prod.exists, mem_jsonFiles]
    constructor
    · rintro ⟨_, content, ⟨hjson, way, hbelow, rfl⟩, rfl⟩
      exact ⟨way, content, hbelow, hjson, rfl⟩
    · rintro ⟨way, content, hbelow, hjson, rfl⟩
      exact ⟨_, content, ⟨hjson, way, hbelow, rfl⟩, rfl⟩
  · exact merge_spec (accounts_of_load? hl).wellFormed (reached sources)

end CatalogSource

end SourceFacts
