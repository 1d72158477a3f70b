/-
  CatalogAudit.Proofs.Catalog.Loading — how catalogs came to be loaded.

  A catalog is loaded when its file holds text, and the text the entries of an object
  (`load_eq_ok`), so the file is a regular one (`exists_file_of_load`), and who shares it has
  the same entries (`root_eq_of_load`). Each locale is loaded on its own: what holds of every one
  of them holds of all (`loadAll_of_forall`, `loadAll_of_exists`), what was loaded can be loaded
  again by its own locale (`mem_loadAll`), and a locale that fails has no part in what is loaded
  (`loadAll_filter`).
-/

import CatalogAudit.Catalog.Basic
import CatalogAudit.Proofs.FileTree.WellFormed
import CatalogAudit.Proofs.FileTree.Writing

namespace CatalogAudit.Catalog

variable {tree : FileTree} {dir : Path}

theorem ofText_eq_ok {locale text : String} {file : Path} {c : Catalog} :
    ofText locale file text = .ok c ↔
      rootOfText text = .ok c.root ∧ c.locale = locale ∧ c.file = file := by
  unfold ofText
  split
  · next root h =>
    rw [Except.ok.injEq]
    constructor
    · rintro rfl
      exact ⟨h, rfl, rfl⟩
    · rintro ⟨hroot, rfl, rfl⟩
      exact Catalog.ext rfl rfl (Except.ok.inj (h.symm.trans hroot))
  · next cause h =>
    simp [h]

theorem load_eq_ok {locale : String} {c : Catalog} :
    load tree dir locale = .ok c ↔
      ∃ text, tree.readText (fileOf dir locale) = .ok text ∧
        rootOfText text = .ok c.root ∧ c.locale = locale ∧ c.file = fileOf dir locale := by
  rw [load, mapError_eq_ok, bind_eq_ok]
  simp only [mapError_eq_ok, ofContent, bind_eq_ok, ofText_eq_ok, FileTree.readText]
  constructor
  · rintro ⟨content, hcontent, text, htext, h⟩
    exact ⟨text, ⟨content, hcontent, htext⟩, h⟩
  · rintro ⟨text, ⟨content, hcontent, htext⟩, h⟩
    exact ⟨content, hcontent, text, htext, h⟩

/-- A catalog was loaded from a regular file. -/
theorem exists_file_of_load {locale : String} {c : Catalog} (h : load tree dir locale = .ok c) :
    ∃ loc content, tree.locate c.file = .ok loc ∧ tree.node? loc = some (.file content) ∧
      (∃ text, FileTree.textOf content = .ok text ∧ rootOfText text = .ok c.root) := by
  obtain ⟨text, htext, hroot, -, hfile⟩ := load_eq_ok.1 h
  obtain ⟨content, hread, hcontent⟩ := bind_eq_ok.1 htext
  obtain ⟨⟨loc, node⟩, hlook, hnode⟩ := bind_eq_ok.1 hread
  obtain ⟨hlocate, hstands⟩ := FileTree.look_eq_ok hlook
  rw [hfile]
  cases node with
  | file content =>
    cases hnode
    exact ⟨loc, content, hlocate, hstands, text, hcontent, hroot⟩
  | directory => cases hnode
  | device =>
    -- a device reads as an empty text, which holds no object
    cases hnode
    cases hcontent
    cases hroot

/-- What was loaded from one location is the same. -/
theorem root_eq_of_load {locale locale' : String} {c d : Catalog} {loc : Location}
    (hc : load tree dir locale = .ok c) (hd : load tree dir locale' = .ok d)
    (hcloc : tree.locate c.file = .ok loc) (hdloc : tree.locate d.file = .ok loc) :
    c.root = d.root := by
  obtain ⟨_, _, hloc, hnode, _, htext, hroot⟩ := exists_file_of_load hc
  obtain ⟨_, _, hloc', hnode', _, htext', hroot'⟩ := exists_file_of_load hd
  rw [hcloc] at hloc
  rw [hdloc] at hloc'
  cases hloc
  cases hloc'
  rw [hnode] at hnode'
  cases hnode'
  rw [htext] at htext'
  cases htext'
  rw [hroot] at hroot'
  exact Except.ok.inj hroot'

theorem catalogs_loadAll (tree : FileTree) (dir : Path) (locales : List String) :
    (loadAll tree dir locales).catalogs = successesOf (load tree dir) locales :=
  filterMap_map_eq_successesOf (fun _ => rfl) fun _ => rfl

theorem failures_loadAll (tree : FileTree) (dir : Path) (locales : List String) :
    (loadAll tree dir locales).failures = failuresOf (load tree dir) locales :=
  filterMap_map_eq_failuresOf (fun _ => rfl) fun _ => rfl

theorem loadAll_of_forall {f : Catalog → Catalog} {catalogs : List Catalog}
    (h : ∀ c ∈ catalogs, load tree dir c.locale = .ok (f c)) :
    loadAll tree dir (catalogs.map (·.locale)) = ⟨catalogs.map f, []⟩ := by
  have hresults : (catalogs.map (·.locale)).map (load tree dir) =
      catalogs.map fun c => .ok (f c) := by
    rw [List.map_map]
    exact List.map_congr_left h
  simp only [loadAll, hresults, List.filterMap_map, Function.comp_def]
  simp

theorem loadAll_of_exists {P : Catalog → Prop} {locales : List String}
    (h : ∀ locale ∈ locales, ∃ c, load tree dir locale = .ok c ∧ P c) :
    (loadAll tree dir locales).failures = [] ∧ ∀ c ∈ (loadAll tree dir locales).catalogs, P c := by
  rw [catalogs_loadAll, failures_loadAll]
  refine ⟨List.eq_nil_iff_forall_not_mem.2 fun e he => ?_, fun c hc => ?_⟩
  · obtain ⟨locale, hl, hfails⟩ := mem_failuresOf.1 he
    obtain ⟨c, hload, -⟩ := h locale hl
    rw [hload] at hfails
    cases hfails
  · obtain ⟨locale, hl, hload⟩ := mem_successesOf.1 hc
    obtain ⟨d, hd, hp⟩ := h locale hl
    rw [hload] at hd
    cases hd
    exact hp

theorem mem_loadAll {locales : List String} {c : Catalog}
    (h : c ∈ (loadAll tree dir locales).catalogs) : load tree dir c.locale = .ok c := by
  rw [catalogs_loadAll] at h
  obtain ⟨locale, -, hload⟩ := mem_successesOf.1 h
  obtain ⟨_, -, -, rfl, -⟩ := load_eq_ok.1 hload
  exact hload

/-! ## Locales that fail -/

/-- Whether the catalog of a locale can be loaded. -/
def isLoadable (tree : FileTree) (dir : Path) (locale : String) : Bool :=
  (load tree dir locale).isOk

section
variable (tree : FileTree) (dir : Path) (locales : List String)

/-- Locales that fail have no part in what is loaded. -/
theorem loadAll_filter :
    loadAll tree dir (locales.filter (isLoadable tree dir)) =
      ⟨(loadAll tree dir locales).catalogs, []⟩ := by
  have hcatalogs : (loadAll tree dir (locales.filter (isLoadable tree dir))).catalogs =
      (loadAll tree dir locales).catalogs := by
    rw [catalogs_loadAll, catalogs_loadAll]
    exact successesOf_filter
  have hfailures : (loadAll tree dir (locales.filter (isLoadable tree dir))).failures = [] := by
    rw [failures_loadAll]
    exact failuresOf_filter
  rw [← hcatalogs, ← hfailures]

/-- Each locale that fails is among the failures, as often as it is listed. -/
theorem map_locale_failures :
    (loadAll tree dir locales).failures.map (·.locale) =
      locales.filter (!isLoadable tree dir ·) := by
  rw [failures_loadAll]
  refine map_failuresOf fun locale e h => ?_
  obtain ⟨cause, -, rfl⟩ := mapError_eq_error.1 h
  rfl

theorem catalogs_loadAll_eq_nil_iff :
    (loadAll tree dir locales).catalogs = [] ↔
      ∀ locale ∈ locales, isLoadable tree dir locale = false := by
  rw [catalogs_loadAll]
  exact successesOf_eq_nil_iff

end

end CatalogAudit.Catalog
