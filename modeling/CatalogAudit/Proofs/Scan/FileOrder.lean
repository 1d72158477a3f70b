/-
  CatalogAudit.Proofs.Scan.FileOrder — the order in which files are scanned does not matter.

  What files use together is a union, so it does not depend on their order or on how often a
  file is listed (`usageIn_congr`), and files may be taken in groups (`usageIn_flatten`).

  A file is scanned on its own, so of a list of files each gives a record or an error
  (`answers_scanFiles`), the records and the errors in the order of the list. So lists with the
  same files give the same usage (`scan_order_irrelevant`).
-/

import CatalogAudit.Proofs.Except
import CatalogAudit.Proofs.Scan.Namespaces
import Mathlib.Data.List.Induction

namespace CatalogAudit

/-! ## Usage of several files -/

namespace Usage

/-- What two lots of files use together. -/
def union (u v : Usage) : Usage :=
  ⟨u.namespaces.insertAll v.namespaces.toList, u.keys.insertAll v.keys.toList⟩

theorem ext_mem {u v : Usage} (hn : ∀ x, x ∈ u.namespaces ↔ x ∈ v.namespaces)
    (hk : ∀ x, x ∈ u.keys ↔ x ∈ v.keys) : u = v := by
  have hnamespaces : u.namespaces = v.namespaces := NameSet.ext_mem hn
  have hkeys : u.keys = v.keys := NameSet.ext_mem hk
  cases u
  cases v
  simp_all

theorem ofFiles_congr {us vs : List FileUsage} (h : ∀ u, u ∈ us ↔ u ∈ vs) :
    ofFiles us = ofFiles vs := by
  refine ext_mem (fun x => ?_) fun x => ?_
  · rw [mem_ofFiles.1, mem_ofFiles.1]
    simp only [h]
  · rw [mem_ofFiles.2, mem_ofFiles.2]
    simp only [h]

theorem ofFiles_append (us vs : List FileUsage) :
    ofFiles (us ++ vs) = (ofFiles us).union (ofFiles vs) := by
  refine ext_mem (fun x => ?_) fun x => ?_
  · rw [union, NameSet.mem_insertAll, NameSet.mem_toList, mem_ofFiles.1, mem_ofFiles.1,
      mem_ofFiles.1]
    simp only [List.mem_append, or_and_right, exists_or]
  · rw [union, NameSet.mem_insertAll, NameSet.mem_toList, mem_ofFiles.2, mem_ofFiles.2,
      mem_ofFiles.2]
    simp only [List.mem_append, or_and_right, exists_or]

end Usage

/-! ## The record of a file -/

namespace FileUsage

/-- What is added to a record leaves it the record of its file. -/
@[simp] theorem file_addNamespace (u : FileUsage) (nspace : String) :
    (u.addNamespace nspace).file = u.file := by
  unfold addNamespace
  split <;> rfl

@[simp] theorem file_bind (u : FileUsage) (identifier nspace : String) :
    (u.bind identifier nspace).file = u.file := rfl

@[simp] theorem file_addKey (u : FileUsage) (key : String) : (u.addKey key).file = u.file := rfl

@[simp] theorem file_addKeys (u : FileUsage) (keys : List String) :
    (u.addKeys keys).file = u.file := rfl

@[simp] theorem file_addNote (u : FileUsage) (kind : NoteKind) (expression : String) :
    (u.addNote kind expression).file = u.file := rfl

end FileUsage

namespace Scan

open Source

section
variable (rules : ScanRules) (u : FileUsage) (fields : List String)

theorem file_addCall (receiver : List Char → Option String) (before : List Char) :
    (addCall receiver u before fields).file = u.file := by
  unfold addCall
  split
  · dsimp only
    split <;> simp
  · rfl

theorem file_addLiteral : (addLiteral u fields).file = u.file := by
  unfold addLiteral
  split
  · split
    · split <;> simp
    · rfl
  · rfl

theorem file_addStaticTemplate (nspace template first : String) (more : List String) :
    (addStaticTemplate rules u nspace template first more).file = u.file := by
  unfold addStaticTemplate
  dsimp only
  split <;> split <;> simp

theorem file_addTemplate : (addTemplate rules u fields).file = u.file := by
  unfold addTemplate
  split
  · split
    · rfl
    · dsimp only
      split
      · split
        · exact file_addStaticTemplate rules u _ _ _ _
        · rfl
      · split
        · unfold addOpenTemplate
          dsimp only
          split <;> simp
        · rfl
  · rfl

theorem file_addProperty (traced : Assoc String String) (hints : List Hint) :
    (addProperty traced hints u fields).file = u.file := by
  unfold addProperty
  split
  · split
    · rfl
    · dsimp only
      split
      · simp
      · split <;> simp
  · rfl

theorem file_addAttribute (path : List Char) (component : String) :
    (addAttribute rules path component u fields).file = u.file := by
  unfold addAttribute
  split
  · split
    · split
      · simp
      · split <;> simp
    · rfl
  · rfl

end

/-- What leaves a record that of its file for a match, does so for all matches. -/
theorem file_eachMatch {f : FileUsage → List Char → List String → FileUsage}
    (hf : ∀ u before fields, (f u before fields).file = u.file) (shape : Text.Pattern)
    (text : List Char) (u : FileUsage) : (eachMatch shape text f u).file = u.file :=
  eachMatch_invariant (P := fun v => v.file = u.file)
    (fun v before fields hv => (hf v before fields).trans hv) rfl

theorem file_finder (rules : ScanRules) (source : Source) (pass : Pass) (u : FileUsage) :
    (pass.finder rules source u).file = u.file := by
  cases pass with
  | namespaceCall =>
    exact file_eachMatch (fun u before fields => file_addCall u fields receiver? before) _ _ u
  | hookCall =>
    exact file_eachMatch (fun u before fields => file_addCall u fields inlineReceiver? before) _ _ u
  | literalKey => exact file_eachMatch (fun u _ fields => file_addLiteral u fields) _ _ u
  | templateKey => exact file_eachMatch (fun u _ fields => file_addTemplate rules u fields) _ _ u
  | propertyKey => exact file_eachMatch (fun u _ fields => file_addProperty u fields _ _) _ _ u
  | componentKey =>
    show (componentKeys rules source u).file = u.file
    unfold componentKeys
    generalize rules.components = components
    induction components generalizing u with
    | nil => rfl
    | cons component components ih =>
      refine (ih _).trans ?_
      exact file_eachMatch
        (fun u _ fields => file_addAttribute rules u fields source.path component) _ _ u

theorem file_scanText (rules : ScanRules) (file : Path) (text : String) :
    (scanText rules file text).file = file := by
  have hpasses : ∀ (passes : List Pass) (u : FileUsage),
      (passes.foldl (fun u pass => pass.finder rules ⟨routePath file, text.toList⟩ u) u).file =
        u.file := by
    intro passes
    induction passes with
    | nil => exact fun _ => rfl
    | cons pass passes ih => exact fun u => (ih _).trans (file_finder rules _ pass u)
  exact hpasses Pass.all (FileUsage.empty file)

/-! ## The files of a list -/

/-- Whether a file can be read as text. -/
def isReadable (tree : FileTree) (file : Path) : Bool := (tree.readText file).isOk

section
variable {rules : ScanRules} {tree : FileTree} {file : Path}

theorem scanFile_eq_ok {u : FileUsage} :
    scanFile rules tree file = .ok u ↔
      ∃ text, tree.readText file = .ok text ∧ scanText rules file text = u := by
  unfold scanFile
  cases tree.readText file <;> simp

theorem scanFile_eq_error {e : UnreadFile} :
    scanFile rules tree file = .error e ↔ ∃ error, tree.readText file = .error error ∧
      ⟨file, error⟩ = e := by
  unfold scanFile
  cases tree.readText file <;> simp

theorem isOk_scanFile : (scanFile rules tree file).isOk = isReadable tree file := by
  unfold scanFile isReadable
  cases tree.readText file <;> rfl

end

section
variable (rules : ScanRules) (tree : FileTree)

theorem usages_scanFiles (files : List Path) :
    (scanFiles rules tree files).usages = successesOf (scanFile rules tree) files :=
  filterMap_map_eq_successesOf (fun _ => rfl) fun _ => rfl

theorem errors_scanFiles (files : List Path) :
    (scanFiles rules tree files).errors = failuresOf (scanFile rules tree) files :=
  filterMap_map_eq_failuresOf (fun _ => rfl) fun _ => rfl

theorem mem_usages_scanFiles {files : List Path} {u : FileUsage} :
    u ∈ (scanFiles rules tree files).usages ↔
      ∃ file ∈ files, ∃ text, tree.readText file = .ok text ∧ scanText rules file text = u := by
  rw [usages_scanFiles, mem_successesOf]
  simp only [scanFile_eq_ok]

/-- Files that cannot be read have no part in what is found. -/
theorem scanFiles_filter (files : List Path) :
    scanFiles rules tree (files.filter (isReadable tree)) =
      ⟨(scanFiles rules tree files).usages, []⟩ := by
  have hfilter : files.filter (isReadable tree) =
      files.filter fun file => (scanFile rules tree file).isOk := by
    simp only [isOk_scanFile]
  have husages : (scanFiles rules tree (files.filter (isReadable tree))).usages =
      (scanFiles rules tree files).usages := by
    rw [usages_scanFiles, usages_scanFiles, hfilter, successesOf_filter]
  have herrors : (scanFiles rules tree (files.filter (isReadable tree))).errors = [] := by
    rw [errors_scanFiles, hfilter, failuresOf_filter]
  rw [← husages, ← herrors]

end

/-- Every file of a list is answered for once, in the order of the list: by its own record
when it can be read, and else by the error. -/
structure FilesUsage.Answers (found : FilesUsage) (rules : ScanRules) (tree : FileTree)
    (files : List Path) : Prop where
  usages : found.usages.map (·.file) = files.filter (isReadable tree)
  errors : found.errors.map (·.file) = files.filter (!isReadable tree ·)
  record : ∀ u ∈ found.usages, ∃ text,
    tree.readText u.file = .ok text ∧ u = scanText rules u.file text
  error : ∀ e ∈ found.errors, tree.readText e.file = .error e.error

/-- The records and the errors together are those of all files, each file as often as it is
listed. -/
theorem FilesUsage.Answers.perm {found : FilesUsage} {rules : ScanRules} {tree : FileTree}
    {files : List Path} (h : found.Answers rules tree files) :
    (found.usages.map (·.file) ++ found.errors.map (·.file)).Perm files := by
  rw [h.usages, h.errors]
  exact List.filter_append_perm (isReadable tree) files

section
variable (rules : ScanRules) (tree : FileTree)

theorem answers_scanFiles (files : List Path) :
    (scanFiles rules tree files).Answers rules tree files := by
  refine ⟨?_, ?_, fun u hu => ?_, fun e he => ?_⟩
  · have horigin (file : Path) (u : FileUsage) (h : scanFile rules tree file = .ok u) :
        u.file = file := by
      obtain ⟨text, -, rfl⟩ := scanFile_eq_ok.1 h
      exact file_scanText rules file text
    rw [usages_scanFiles, map_successesOf horigin]
    simp only [isOk_scanFile]
  · have horigin (file : Path) (e : UnreadFile) (h : scanFile rules tree file = .error e) :
        e.file = file := by
      obtain ⟨error, -, rfl⟩ := scanFile_eq_error.1 h
      rfl
    rw [errors_scanFiles, map_failuresOf horigin]
    simp only [isOk_scanFile]
  · obtain ⟨file, -, text, htext, rfl⟩ := (mem_usages_scanFiles rules tree).1 hu
    rw [file_scanText]
    exact ⟨text, htext, rfl⟩
  · rw [errors_scanFiles] at he
    obtain ⟨file, -, hfails⟩ := mem_failuresOf.1 he
    obtain ⟨error, herror, rfl⟩ := scanFile_eq_error.1 hfails
    exact herror

/-! ## Usage of a list -/

/-- What the files of a list use together. -/
def usageIn (files : List Path) : Usage := .ofFiles (scanFiles rules tree files).usages

theorem usageIn_congr {files others : List Path} (h : ∀ file, file ∈ others ↔ file ∈ files) :
    usageIn rules tree others = usageIn rules tree files := by
  refine Usage.ofFiles_congr fun u => ?_
  rw [mem_usages_scanFiles, mem_usages_scanFiles]
  simp only [h]

theorem usageIn_append (files others : List Path) :
    usageIn rules tree (files ++ others) =
      (usageIn rules tree files).union (usageIn rules tree others) := by
  have happend : (scanFiles rules tree (files ++ others)).usages =
      (scanFiles rules tree files).usages ++ (scanFiles rules tree others).usages := by
    simp [scanFiles]
  rw [usageIn, happend, Usage.ofFiles_append]
  rfl

theorem usageIn_flatten (groups : List (List Path)) :
    (groups.map (usageIn rules tree)).foldl Usage.union .empty =
      usageIn rules tree groups.flatten := by
  induction groups using List.reverseRecOn with
  | nil => rfl
  | append_singleton groups group ih =>
    rw [List.map_append, List.foldl_append, ih, List.flatten_append, List.flatten_singleton,
      usageIn_append]
    rfl

theorem mem_usageIn {files : List Path} {x : String} :
    (x ∈ (usageIn rules tree files).namespaces ↔ ∃ file ∈ files, ∃ text,
        tree.readText file = .ok text ∧ x ∈ (scanText rules file text).namespaces) ∧
      (x ∈ (usageIn rules tree files).keys ↔ ∃ file ∈ files, ∃ text,
        tree.readText file = .ok text ∧ x ∈ (scanText rules file text).keys) := by
  have hrecords (P : FileUsage → Prop) : (∃ u ∈ (scanFiles rules tree files).usages, P u) ↔
      ∃ file ∈ files, ∃ text, tree.readText file = .ok text ∧ P (scanText rules file text) := by
    constructor
    · rintro ⟨u, hu, hp⟩
      obtain ⟨file, hfile, text, htext, rfl⟩ := (mem_usages_scanFiles rules tree).1 hu
      exact ⟨file, hfile, text, htext, hp⟩
    · rintro ⟨file, hfile, text, htext, hp⟩
      exact ⟨_, (mem_usages_scanFiles rules tree).2 ⟨file, hfile, text, htext, rfl⟩, hp⟩
  exact ⟨Usage.mem_ofFiles.1.trans (hrecords _), Usage.mem_ofFiles.2.trans (hrecords _)⟩

/-- The order in which files are scanned, how often each is listed and how they are grouped
does not matter: what they use is what each file that can be read uses. Every list is answered
for file by file. -/
theorem scan_order_irrelevant {files others : List Path} {groups : List (List Path)}
    (hothers : ∀ file, file ∈ others ↔ file ∈ files)
    (hgroups : ∀ file, (∃ group ∈ groups, file ∈ group) ↔ file ∈ files) :
    usageIn rules tree others = usageIn rules tree files ∧
      (groups.map (usageIn rules tree)).foldl Usage.union .empty = usageIn rules tree files ∧
      (∀ x, (x ∈ (usageIn rules tree files).namespaces ↔ ∃ file ∈ files, ∃ text,
          tree.readText file = .ok text ∧ x ∈ (scanText rules file text).namespaces) ∧
        (x ∈ (usageIn rules tree files).keys ↔ ∃ file ∈ files, ∃ text,
          tree.readText file = .ok text ∧ x ∈ (scanText rules file text).keys)) ∧
      ∀ list, (scanFiles rules tree list).Answers rules tree list ∧
        ((scanFiles rules tree list).usages.map (·.file) ++
          (scanFiles rules tree list).errors.map (·.file)).Perm list := by
  refine ⟨usageIn_congr rules tree hothers, ?_, fun _ => mem_usageIn rules tree, fun list => ?_⟩
  · rw [usageIn_flatten]
    exact usageIn_congr rules tree fun file => List.mem_flatten.trans (hgroups file)
  · exact ⟨answers_scanFiles rules tree list, (answers_scanFiles rules tree list).perm⟩

end

/-- A source that uses a key, one that is no text, and one that is missing. -/
def mixedTree : FileTree :=
  ⟨[], [(["a.ts"], .file "const t = useTranslations(\"home\");\nt(\"title\");".toUTF8),
    (["b.ts"], .file ⟨#[0xff]⟩)]⟩

theorem scan_order_irrelevant_mixed :
    let rules : ScanRules := ⟨[], [], [], ""⟩
    let files : List Path := [⟨"a.ts"⟩, ⟨"b.ts"⟩, ⟨"c.ts"⟩]
    usageIn rules mixedTree [⟨"c.ts"⟩, ⟨"a.ts"⟩, ⟨"b.ts"⟩, ⟨"a.ts"⟩] =
        usageIn rules mixedTree files ∧
      ([[⟨"b.ts"⟩], [⟨"c.ts"⟩, ⟨"a.ts"⟩]].map (usageIn rules mixedTree)).foldl Usage.union .empty =
        usageIn rules mixedTree files ∧
      (usageIn rules mixedTree files).namespaces.toList = ["home"] ∧
      (usageIn rules mixedTree files).keys.toList = ["home.title"] ∧
      (scanFiles rules mixedTree files).errors =
        [⟨⟨"b.ts"⟩, .notText⟩, ⟨⟨"c.ts"⟩, .notFound⟩] := by
  have hothers : ∀ file : Path, file ∈ [⟨"c.ts"⟩, ⟨"a.ts"⟩, ⟨"b.ts"⟩, ⟨"a.ts"⟩] ↔
      file ∈ [⟨"a.ts"⟩, ⟨"b.ts"⟩, ⟨"c.ts"⟩] := by
    intro file
    simp only [List.mem_cons, List.not_mem_nil, or_false]
    tauto
  have hgroups : ∀ file : Path, (∃ group ∈ [[⟨"b.ts"⟩], [⟨"c.ts"⟩, ⟨"a.ts"⟩]], file ∈ group) ↔
      file ∈ [⟨"a.ts"⟩, ⟨"b.ts"⟩, ⟨"c.ts"⟩] := by
    intro file
    simp only [List.mem_cons, List.not_mem_nil, or_false, exists_eq_or_imp, exists_eq_left]
    tauto
  obtain ⟨hsame, hgrouped, -, -⟩ :=
    scan_order_irrelevant ⟨[], [], [], ""⟩ mixedTree hothers hgroups
  exact ⟨hsame, hgrouped, by decide +kernel, by decide +kernel, by decide +kernel⟩

end Scan

end CatalogAudit
