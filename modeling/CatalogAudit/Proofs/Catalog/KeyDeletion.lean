/-
  CatalogAudit.Proofs.Catalog.KeyDeletion — what deleting keys does to a catalog, and all that
  it does.

  One key. The catalog has the key exactly when there is something to delete. Afterwards the
  entries are those from before, in order, without the one that the key leads to and what is
  below it; as a catalog is determined by its entries, nothing else can have happened
  (`deleteKey_frame`). A container that becomes empty is still in the list.

  Many keys, and then the empty containers (`clear`). Each deletion filters the entries by their
  paths, so what stays does not depend on the other deletions. A leaf stays when no key leads to
  it or to what stands above it, a container when a leaf in it stays, and the order of the keys
  does not matter (`clear_leaves_iff`).
-/

import CatalogAudit.Proofs.Catalog.Editing
import CatalogAudit.Proofs.Catalog.NormalForm

namespace CatalogAudit.Catalog

open Members

/-! ## One key -/

theorem root_edit_deleteKey (c : Catalog) (key : String) :
    (c.edit (.deleteKey key)).root = (c.root.delete? (keySegments key)).getD c.root := by
  rw [edit]
  cases h : c.deleteKey? key with
  | none =>
    rw [Option.pmap_eq_none_iff.1 h]
    rfl
  | some d =>
    rw [(deleteKey?_eq_some h).1]
    rfl

/-- Whether a key can be deleted is what a look for it says. -/
theorem isSome_deleteKey? (c : Catalog) (key : String) :
    (c.deleteKey? key).isSome = c.hasKey key := by
  rw [deleteKey?, Option.isSome_pmap, isSome_delete?, hasKey]

theorem entries_edit_deleteKey (c : Catalog) (key : String) :
    (c.edit (.deleteKey key)).root.entries =
      c.root.entries.filter fun e => !(keySegments key).isPrefixOf e.1 := by
  rw [root_edit_deleteKey]
  cases h : c.root.delete? (keySegments key) with
  | none =>
    have hmissing : c.root.hasEntry (keySegments key) = false := by
      rw [← isSome_delete?, h]
      rfl
    exact (filter_entries_of_not_hasEntry c.distinct (keySegments_ne_nil key) hmissing).symm
  | some left => exact (deletes_of_delete? c.distinct h).entries_eq

theorem hasKey_edit_deleteKey (c : Catalog) (key : String) :
    (c.edit (.deleteKey key)).hasKey key = false := by
  rw [Bool.eq_false_iff]
  intro h
  obtain ⟨e, he⟩ := (hasEntry_iff_mem_entries (c.edit (.deleteKey key)).distinct).1 h
  rw [entries_edit_deleteKey] at he
  obtain ⟨-, hkeep⟩ := List.mem_filter.1 he
  have hself : (keySegments key).isPrefixOf (keySegments key) = true :=
    List.isPrefixOf_iff_prefix.2 (List.prefix_refl _)
  simp [hself] at hkeep

/-- Deleting a key deletes what the catalog has under it, and nothing else: the root afterwards
is the one that has the other entries, in the same order and with the same values. -/
theorem deleteKey_frame (c : Catalog) (key : String) :
    let d := c.edit (.deleteKey key)
    (c.deleteKey? key).isSome = c.hasKey key ∧ (c.hasKey key = false → d = c) ∧
      d.hasKey key = false ∧ d.locale = c.locale ∧ d.file = c.file ∧
      ∀ root : Members, root = d.root ↔ root.hasDistinctKeys = true ∧
        root.entries = c.root.entries.filter fun e => !(keySegments key).isPrefixOf e.1 := by
  intro d
  have hentries : d.root.entries =
      c.root.entries.filter fun e => !(keySegments key).isPrefixOf e.1 :=
    entries_edit_deleteKey c key
  obtain ⟨hlocale, hfile⟩ := edit_keeps c (.deleteKey key)
  refine ⟨isSome_deleteKey? c key, ?_, hasKey_edit_deleteKey c key, hlocale, hfile, fun root => ?_⟩
  · intro hmissing
    rw [← isSome_deleteKey?, Option.isSome_eq_false_iff, Option.isNone_iff_eq_none] at hmissing
    show (c.deleteKey? key).getD c = c
    rw [hmissing]
    rfl
  · constructor
    · intro hroot
      subst hroot
      exact ⟨d.distinct, hentries⟩
    · intro h
      obtain ⟨hr, he⟩ := h
      exact eq_of_entries_eq hr d.distinct (he.trans hentries.symm)

/-- A leaf that is alone in its container, beside a key with a dot in it. -/
def footerOnly : Catalog :=
  ⟨"en", ⟨"en.json"⟩, [("common", .obj [("footer", .obj [("legal", .str "(c)")]), ("ok", .null)]),
    ("common.footer", .arr [.obj []])], by decide⟩

/-- The container `common.footer` stays, empty, and so does the leaf whose key is spelled so. -/
theorem deleteKey_frame_footer :
    let d := footerOnly.edit (.deleteKey "common.footer.legal")
    (footerOnly.deleteKey? "common.footer.legal").isSome = true ∧
      d.hasKey "common.footer.legal" = false ∧
      d.root = [("common", .obj [("footer", .obj []), ("ok", .null)]),
        ("common.footer", .arr [.obj []])] := by
  intro d
  obtain ⟨hagree, -, hgone, -, -, hroot⟩ := deleteKey_frame footerOnly "common.footer.legal"
  refine ⟨?_, hgone, ?_⟩
  · rw [hagree]
    decide
  · symm
    rw [hroot]
    exact ⟨by decide, rfl⟩

/-! ## Many keys, and the empty containers -/

/-- The catalog after its entries under some keys are deleted, one by one, and then its empty
containers. -/
def clear (c : Catalog) (keys : List String) : Catalog :=
  c.edited (keys.map .deleteKey ++ [.prune])

theorem root_edited_deleteKeys (c : Catalog) (keys : List String) :
    (c.edited (keys.map .deleteKey)).root = (c.root.deleteEach keys).2 := by
  induction keys generalizing c with
  | nil => rfl
  | cons key keys ih =>
    rw [List.map_cons, edited, List.foldl_cons, ← edited, ih, root_edit_deleteKey, deleteEach]
    cases c.root.delete? (keySegments key) <;> rfl

theorem root_clear (c : Catalog) (keys : List String) :
    (c.clear keys).root = (c.root.deleteEach keys).2.pruned := by
  rw [clear, edited, List.foldl_append, ← edited, ← root_edited_deleteKeys]
  rfl

theorem leaves_clear (c : Catalog) (keys : List String) :
    (c.clear keys).root.leaves = c.root.leaves.filter fun leaf =>
      keys.all fun key => !(keySegments key).isPrefixOf leaf.1 := by
  rw [root_clear, leaves_pruned, leaves_deleteEach c.distinct]

theorem isCompact_clear (c : Catalog) (keys : List String) :
    (c.clear keys).root.isCompact = true := by
  rw [root_clear]
  exact isCompact_pruned _

/-- Keys that are the same but for their order and number leave the same catalog. -/
theorem clear_congr (c : Catalog) {keys others : List String}
    (h : ∀ key, key ∈ others ↔ key ∈ keys) : c.clear others = c.clear keys := by
  have hleaves : (c.clear others).root.leaves = (c.clear keys).root.leaves := by
    rw [leaves_clear, leaves_clear]
    refine List.filter_congr fun leaf _ => ?_
    rw [Bool.eq_iff_iff, List.all_eq_true, List.all_eq_true]
    exact forall_congr' fun key => by rw [h key]
  have hroot := eq_of_leaves_eq (c.clear others).distinct (isCompact_clear c others)
    (c.clear keys).distinct (isCompact_clear c keys) hleaves
  obtain ⟨hlocale, hfile⟩ := edited_keeps c (keys.map .deleteKey ++ [.prune])
  obtain ⟨hlocale', hfile'⟩ := edited_keeps c (others.map .deleteKey ++ [.prune])
  exact Catalog.ext (hlocale'.trans hlocale.symm) (hfile'.trans hfile.symm) hroot

/-- What is left after deletions, in any order and number, and the removal of the empty
containers. -/
theorem clear_leaves_iff (c : Catalog) (keys : List String) :
    ((c.clear keys).root.leaves = c.root.leaves.filter fun leaf =>
        keys.all fun key => !(keySegments key).isPrefixOf leaf.1) ∧
      (∀ path ≠ [], (path, .container) ∈ (c.clear keys).root.entries ↔
        ∃ leaf ∈ (c.clear keys).root.leaves, path <+: leaf.1 ∧ path ≠ leaf.1) ∧
      ∀ others : List String, (∀ key, key ∈ others ↔ key ∈ keys) →
        c.clear others = c.clear keys := by
  refine ⟨leaves_clear c keys, ?_, fun others h => clear_congr c h⟩
  intro path hne
  exact container_mem_entries_iff (c.clear keys).distinct (isCompact_clear c keys) hne

def menuCatalog : Catalog :=
  ⟨"en", ⟨"en.json"⟩,
    [("menu", .obj [("file", .obj [("open", .str "Open")]), ("title", .str "Menu")]),
      ("help", .obj [("about", .null)]), ("drafts", .obj [])], by decide⟩

/-- A container is deleted after its last leaf, a key is deleted twice, and one that is not there
is deleted too. -/
theorem clear_leaves_iff_menu :
    let keys := ["menu.file.open", "menu.file", "help.about", "menu.file.open", "help.faq"]
    (menuCatalog.clear keys).root.leaves = [(["menu", "title"], .str "Menu")] ∧
      (["menu"], .container) ∈ (menuCatalog.clear keys).root.entries ∧
      (["help"], .container) ∉ (menuCatalog.clear keys).root.entries ∧
      menuCatalog.clear ["help.faq", "menu.file", "help.about", "menu.file.open"] =
        menuCatalog.clear keys := by
  intro keys
  obtain ⟨hleaves, hcontainers, horder⟩ := clear_leaves_iff menuCatalog keys
  have hleft : (menuCatalog.clear keys).root.leaves = [(["menu", "title"], .str "Menu")] := hleaves
  refine ⟨hleft, ?_, ?_, horder _ ?_⟩
  · rw [hcontainers _ (by simp), hleft]
    exact ⟨_, .head _, by decide, by decide⟩
  · rw [hcontainers _ (by simp), hleft]
    intro h
    obtain ⟨leaf, hl, hp, -⟩ := h
    rw [List.mem_singleton.1 hl] at hp
    exact absurd hp (by decide)
  · intro key
    simp only [keys, List.mem_cons]
    grind

end CatalogAudit.Catalog
