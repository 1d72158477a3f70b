/-
  CatalogAudit.Proofs.Catalog.Editing — a catalog that was edited, saved and loaded again.

  A catalog that was loaded may have entries deleted by their dotted keys, namespaces deleted
  and empty containers taken away, in any order and number (`Edit`, `edited`). Each edit trims
  the catalog, so a run of edits does (`trimmed_edit`, `trimmed_edited`): it nests no deeper
  than the text that was read.

  So when its numbers are integers it can be saved where it was loaded from, loads as the
  same catalog, with its entries in the same order at every level, and saving it once more
  changes nothing (`load_save_edited`).
-/

import CatalogAudit.Proofs.Catalog.Loading
import CatalogAudit.Proofs.Catalog.Trimmed

namespace CatalogAudit

/-! ## Edits -/

namespace Catalog

/-- A change to a loaded catalog. -/
inductive Edit where
  | deleteKey (key : String)
  | deleteNamespace (nspace : String)
  /-- Take away the containers without a leaf. -/
  | prune
  deriving DecidableEq, Repr

/-- A deletion that finds no entry leaves the catalog as it is. -/
def edit (c : Catalog) : Edit → Catalog
  | .deleteKey key => (c.deleteKey? key).getD c
  | .deleteNamespace nspace => (c.deleteNamespace? nspace).getD c
  | .prune => c.pruned

def edited (c : Catalog) (edits : List Edit) : Catalog := edits.foldl edit c

variable {c : Catalog}

theorem deleteKey?_eq_some {key : String} {d : Catalog} (h : c.deleteKey? key = some d) :
    c.root.delete? (keySegments key) = some d.root ∧ d.locale = c.locale ∧ d.file = c.file := by
  obtain ⟨root, hdistinct, hroot, rfl⟩ := Option.pmap_eq_some_iff.1 h
  exact ⟨hroot, rfl, rfl⟩

/-- What is edited is the root. -/
theorem edit_keeps (c : Catalog) (e : Edit) :
    (c.edit e).locale = c.locale ∧ (c.edit e).file = c.file := by
  cases e with
  | deleteKey key =>
    rw [edit]
    cases h : c.deleteKey? key with
    | none => exact ⟨rfl, rfl⟩
    | some d => exact (deleteKey?_eq_some h).2
  | deleteNamespace nspace =>
    rw [edit, deleteNamespace?]
    split <;> exact ⟨rfl, rfl⟩
  | prune => exact ⟨rfl, rfl⟩

theorem edited_keeps (c : Catalog) (edits : List Edit) :
    (c.edited edits).locale = c.locale ∧ (c.edited edits).file = c.file := by
  induction edits generalizing c with
  | nil => exact ⟨rfl, rfl⟩
  | cons e edits ih =>
    obtain ⟨hlocale, hfile⟩ := edit_keeps c e
    rw [edited, List.foldl_cons, ← edited, ← hlocale, ← hfile]
    exact ih (c.edit e)

theorem trimmed_edit (c : Catalog) (e : Edit) : Members.Trimmed (c.edit e).root c.root := by
  cases e with
  | deleteKey key =>
    rw [edit]
    cases h : c.deleteKey? key with
    | none => exact .refl _
    | some d => exact (Members.deletes_of_delete? c.distinct (deleteKey?_eq_some h).1).trimmed
  | deleteNamespace nspace =>
    rw [edit, deleteNamespace?]
    split
    · exact Members.trimmed_filter _ _
    · exact .refl _
  | prune => exact Members.trimmed_pruned _

theorem trimmed_edited (c : Catalog) (edits : List Edit) :
    Members.Trimmed (c.edited edits).root c.root := by
  induction edits generalizing c with
  | nil => exact .refl _
  | cons e edits ih => exact (ih (c.edit e)).trans (trimmed_edit c e)

/-! ## Saving and loading -/

variable {tree : FileTree} {dir : Path} {locale : String}

/-- The text of a catalog's path ends in a name. -/
theorem exists_text_fileOf (dir : Path) (locale : String) :
    ∃ before, (fileOf dir locale).text.toList = before ++ ".json".toList := by
  obtain ⟨before, h⟩ := Path.exists_text_child dir (locale ++ ".json")
  exact ⟨before ++ locale.toList, by rw [fileOf, h, String.toList_append, List.append_assoc]⟩

/-- A catalog that was loaded and edited, and has only integers for numbers, can be saved to
its file. From there it loads as it is, and saving it again leaves the file as it is. -/
theorem load_save_edited (hload : load tree dir locale = .ok c) (edits : List Edit)
    (hn : (c.edited edits).root.hasOnlyIntegers = true) :
    ∃ saved, (c.edited edits).save tree = .ok saved ∧
      saved.content? (fileOf dir locale) = some (c.edited edits).text.toUTF8 ∧
      load saved dir locale = .ok (c.edited edits) ∧
      (c.edited edits).save saved = .ok saved := by
  obtain ⟨loc, old, hloc, hnode, -⟩ := exists_file_of_load hload
  obtain ⟨before, htext⟩ := exists_text_fileOf dir locale
  obtain ⟨_, -, hroot, hlocale, hfile⟩ := load_eq_ok.1 hload
  have htrimmed := trimmed_edited c edits
  obtain ⟨hsame, hsame'⟩ := edited_keeps c edits
  rw [hlocale] at hsame
  rw [hfile] at hsame' hloc
  generalize c.edited edits = d at hn htrimmed hsame hsame' ⊢
  have hread : rootOfText d.text = .ok d.root := rootOfText_trimmed hroot htrimmed hn
  obtain ⟨saved, hwrite, hcontent, hagain⟩ :=
    FileTree.exists_write_over htext (by decide) (by decide) hloc hnode d.text.toUTF8
  refine ⟨saved, ?_, hcontent, ?_, ?_⟩
  · rw [save, hsame']
    exact mapError_eq_ok.2 hwrite
  · have htext := FileTree.readText_eq_ok.2 ⟨_, hcontent, Text.fromUTF8?_toUTF8 d.text⟩
    exact load_eq_ok.2 ⟨d.text, htext, hread, hsame, hsame'⟩
  · rw [save, hsame']
    exact mapError_eq_ok.2 hagain

/-- A key and a string with escapes, an empty container, the greatest integer, and a number that
is none. -/
def draftText : String :=
  "\x7b\"\\\"\": \"\\\\\\u0001\", \"ключ\": \x7b\"\": \x7b\x7d, \"n\": 18446744073709551615\x7d, \"z\": -0, \"o\": []\x7d"

def draftTree : FileTree :=
  ⟨[], [(["messages"], .directory), (["messages", "en.json"], .file draftText.toUTF8)]⟩

def draftCatalog : Catalog :=
  ⟨"en", ⟨"messages/en.json"⟩, [("\"", .str "\\\x01"),
    ("ключ", .obj [("", .obj []), ("n", .num (.int 18446744073709551615))]),
    ("z", .num (.float Json.minusZero)), ("o", .arr [])], rfl⟩

theorem load_draftTree : load draftTree ⟨"messages"⟩ "en" = .ok draftCatalog := rfl

theorem load_save_edited_draft :
    let c := draftCatalog.edited [.deleteKey "z", .deleteKey "n", .deleteNamespace "o", .prune]
    load draftTree ⟨"messages"⟩ "en" = .ok draftCatalog ∧
      draftCatalog.root.hasOnlyIntegers = false ∧ c.root.hasOnlyIntegers = true ∧
      c.root = [("\"", .str "\\\x01"), ("ключ", .obj [("n", .num (.int 18446744073709551615))])] ∧
      ∃ saved, c.save draftTree = .ok saved ∧ load saved ⟨"messages"⟩ "en" = .ok c ∧
        c.save saved = .ok saved := by
  intro c
  obtain ⟨saved, hsave, -, hload, hagain⟩ := load_save_edited load_draftTree
    [.deleteKey "z", .deleteKey "n", .deleteNamespace "o", .prune] rfl
  exact ⟨load_draftTree, rfl, rfl, rfl, saved, hsave, hload, hagain⟩

end Catalog

end CatalogAudit
