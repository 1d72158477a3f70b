/-
  CatalogAudit.Proofs.Catalog.Discovery — the locales that have a catalog in a directory.

  A file is the catalog of a locale when its name is that of the locale and `.json` after it;
  such a name has no other stem, however many dots it has (`localeOf?_child`). The locales of a
  directory are those of the files that are found at their paths, in the order of their bytes but
  for the default one, which comes first. Neither depends on the order in which the directory
  lists its entries, and the file that a locale was found by is the one that is loaded for it
  (`locales_are_the_files`).
-/

import CatalogAudit.Catalog.Basic
import CatalogAudit.Proofs.FileTree.Following
import CatalogAudit.Proofs.FileTree.WellFormed
import CatalogAudit.Proofs.FileTree.Writing
import CatalogAudit.Proofs.Text.Bytes

namespace CatalogAudit

open Text

/-! ## Trees that list their entries in another order -/

namespace FileTree

variable {t t' : FileTree}

/-- The same entries, listed in any order. -/
structure SameEntries (t t' : FileTree) : Prop where
  workingDirectory : t'.workingDirectory = t.workingDirectory
  nodes : t'.nodes.Perm t.nodes

theorem SameEntries.node?_eq (h : t.SameEntries t') (ht : t.WellFormed) (loc : Location) :
    t'.node? loc = t.node? loc := by
  have hdistinct : t'.nodes.names.Nodup := (h.nodes.map _).nodup_iff.2 ht.distinct
  rw [node?, node?]
  split
  · rfl
  · refine Assoc.value?_eq_of_mem_iff fun node => ?_
    rw [h.nodes.mem_iff, ← Assoc.value?_eq_some_iff ht.distinct]

theorem SameEntries.locate_eq (h : t.SameEntries t') (ht : t.WellFormed) (p : Path) :
    t'.locate p = t.locate p := by
  have hfollow : ∀ (segments : List String) (loc : Location),
      t'.follow loc segments = t.follow loc segments := by
    intro segments
    induction segments with
    | nil => intro loc; rfl
    | cons segment rest ih =>
      intro loc
      rw [follow, follow, h.node?_eq ht]
      simp only [ih]
  have hstart : t'.start p = t.start p := by rw [start, start, h.workingDirectory]
  unfold locate
  rw [hfollow, hstart]

theorem SameEntries.look_eq (h : t.SameEntries t') (ht : t.WellFormed) (p : Path) :
    t'.look p = t.look p := by
  simp only [look, h.locate_eq ht, h.node?_eq ht]

theorem SameEntries.locateDirectory_eq (h : t.SameEntries t') (ht : t.WellFormed) (p : Path) :
    t'.locateDirectory p = t.locateDirectory p := by
  simp only [locateDirectory, h.look_eq ht]

theorem SameEntries.hasFile_eq (h : t.SameEntries t') (ht : t.WellFormed) :
    t'.hasFile = t.hasFile := by
  funext p
  simp only [hasFile, h.look_eq ht]

theorem SameEntries.children_perm (h : t.SameEntries t') (loc : Location) :
    (t'.children loc).Perm (t.children loc) := h.nodes.filterMap _

theorem hasFile_iff {p : Path} :
    t.hasFile p = true ↔ ∃ loc content, t.look p = .ok (loc, .file content) := by
  unfold hasFile
  split
  · next loc content h => simp [h]
  · next h => simpa using h

end FileTree

namespace Catalog

open FileTree CatalogAudit.Path

variable {tree : FileTree} {dir : Path} {loc : Location} {locale name : String}

/-! ## Names -/

theorem fileName?_child (hdir : dir.text ≠ "") (hn : IsName name) :
    (dir.child name).fileName? = some name := by
  have hcomponents : (dir.child name).components = dir.components ++ [name].map .name :=
    components_child hdir hn
  exact fileName?_of_components hcomponents (List.cons_ne_nil name [])

theorem localeOf?_child (hdir : dir.text ≠ "") (hn : IsName name) :
    localeOf? (dir.child name) = some locale ↔ name = locale ++ ".json" ∧ locale ≠ "" := by
  have hjson : (locale ++ ".json").toList = locale.toList ++ '.' :: "json".toList := by simp
  have hdot : '.' ∉ "json".toList := by decide
  rw [localeOf?, extension?, stem?, fileName?_child hdir hn]
  constructor
  · intro h
    split at h
    · next hextension =>
      obtain ⟨ending, hending, hof⟩ := Option.map_eq_some_iff.1 hextension
      obtain ⟨stem, hstem, hplain, hname⟩ := splitName_snd_eq_some_iff.1 hending
      rw [Option.map_some, hname, splitName_of_append hstem hplain, Option.some.injEq] at h
      subst h
      refine ⟨String.toList_inj.1 ?_, fun e => hstem (by simpa using congrArg String.toList e)⟩
      rw [hname, ← String.toList_ofList (l := ending), hof]
      simp
    · cases h
  · rintro ⟨rfl, hne⟩
    have hstem : locale.toList ≠ [] := fun e => hne (String.toList_inj.1 e)
    rw [Option.bind_some, Option.map_some, hjson, splitName_of_append hstem hdot]
    simp

/-! ## Order -/

/-- The default locale comes first, if it is among them, and the others in the order of their
bytes. -/
structure IsOrdered (default : String) (locales : List String) : Prop where
  nodup : locales.Nodup
  ascending : ∃ others, locales = (if default ∈ locales then [default] else []) ++ others ∧
    others.Pairwise fun a b => bytes a < bytes b

theorem mem_moveToFront {names : List String} :
    locale ∈ moveToFront name names ↔ locale ∈ names := by
  unfold moveToFront
  split
  · next h =>
    by_cases heq : locale = name
    · simp [heq, h]
    · rw [List.mem_cons, List.mem_erase_of_ne heq, or_iff_right heq]
  · rfl

theorem isOrdered_moveToFront {names : List String} (h : names.Pairwise (· < ·)) :
    IsOrdered name (moveToFront name names) := by
  have hbytes : ∀ {xs : List String}, xs.Pairwise (· < ·) →
      xs.Pairwise fun a b => bytes a < bytes b := fun h => h.imp bytes_lt_bytes_iff.2
  have hnodup : names.Nodup := by
    refine List.Pairwise.imp (fun {a b} hlt => ?_) h
    rintro rfl
    exact String.lt_irrefl a hlt
  have hmem : name ∈ moveToFront name names ↔ name ∈ names := mem_moveToFront
  by_cases hname : name ∈ names
  · have heq : moveToFront name names = name :: names.erase name := if_pos hname
    refine ⟨?_, names.erase name, ?_, hbytes (h.sublist List.erase_sublist)⟩
    · rw [heq]
      exact List.nodup_cons.2 ⟨fun hm => (hnodup.mem_erase_iff.1 hm).1 rfl, hnodup.erase name⟩
    · rw [if_pos (hmem.2 hname), heq]
      rfl
  · have heq : moveToFront name names = names := if_neg hname
    rw [heq] at hmem ⊢
    exact ⟨hnodup, names, by rw [if_neg hname]; rfl, hbytes h⟩

/-! ## Discovery -/

/-- The locales of the files in a directory, as they are listed. -/
def found (tree : FileTree) (dir : Path) (loc : Location) : List String :=
  (((tree.children loc).map fun child => dir.child child.1).filter tree.hasFile).filterMap localeOf?

section

variable (hdir : tree.locateDirectory dir = .ok loc) (default : String)
include hdir

theorem discover_eq :
    discover tree dir default =
      moveToFront default (NameSet.ofList (found tree dir loc)).toList := by
  rw [discover, hdir]
  rfl

theorem mem_discover : locale ∈ discover tree dir default ↔ locale ∈ found tree dir loc := by
  rw [discover_eq hdir, mem_moveToFront, NameSet.mem_toList, NameSet.mem_ofList]

theorem isOrdered_discover : IsOrdered default (discover tree dir default) := by
  rw [discover_eq hdir]
  exact isOrdered_moveToFront (NameSet.ofList _).sorted

/-- The order in which a directory lists its entries does not matter. -/
theorem discover_of_sameEntries (ht : tree.WellFormed) {tree' : FileTree}
    (h : tree.SameEntries tree') : discover tree' dir default = discover tree dir default := by
  have hdir' : tree'.locateDirectory dir = .ok loc := by rw [h.locateDirectory_eq ht, hdir]
  have hset : NameSet.ofList (found tree' dir loc) = NameSet.ofList (found tree dir loc) := by
    apply NameSet.ext_mem
    intro locale
    rw [NameSet.mem_ofList, NameSet.mem_ofList, found, found, h.hasFile_eq ht]
    exact ((((h.children_perm loc).map _).filter _).filterMap _).mem_iff
  rw [discover_eq hdir', discover_eq hdir, hset]

end

section

variable (ht : tree.WellFormed) (hdir : tree.locateDirectory dir = .ok loc)
include ht hdir

theorem mem_found :
    locale ∈ found tree dir loc ↔ locale ≠ "" ∧ ∃ content,
      tree.look (fileOf dir locale) = .ok (loc ++ [locale ++ ".json"], .file content) := by
  have htext := text_ne_of_locate (locateDirectory_eq_ok hdir).1
  have hleads : ∀ {name l node}, IsName name → tree.look (dir.child name) = .ok (l, node) →
      l = loc ++ [name] := by
    intro name l node hn hlook
    rw [eq_destination_of_locate (look_eq_ok hlook).1, destination_child tree htext hn,
      ← eq_destination_of_locate (locateDirectory_eq_ok hdir).1]
  rw [found, List.mem_filterMap]
  constructor
  · intro h
    obtain ⟨file, hfile, hlocale⟩ := h
    obtain ⟨hmem, hregular⟩ := List.mem_filter.1 hfile
    obtain ⟨⟨name, node⟩, hchild, rfl⟩ := List.mem_map.1 hmem
    have hname := ht.isName_of_mem_children hchild
    obtain ⟨rfl, hne⟩ := (localeOf?_child htext hname).1 hlocale
    obtain ⟨l, content, hlook⟩ := hasFile_iff.1 hregular
    refine ⟨hne, content, ?_⟩
    rw [← hleads hname hlook]
    exact hlook
  · intro h
    obtain ⟨hne, content, hlook⟩ := h
    have hchild := ht.mem_children.2 (look_eq_ok hlook).2
    have hname := ht.isName_of_mem_children hchild
    refine ⟨dir.child (locale ++ ".json"), List.mem_filter.2 ⟨?_, ?_⟩, ?_⟩
    · exact List.mem_map.2 ⟨_, hchild, rfl⟩
    · exact hasFile_iff.2 ⟨_, content, hlook⟩
    · exact (localeOf?_child htext hname).2 ⟨rfl, hne⟩

/-- No two files have one locale. -/
theorem nodup_found : (found tree dir loc).Nodup := by
  have htext := text_ne_of_locate (locateDirectory_eq_ok hdir).1
  rw [found, List.filterMap_filter, List.filterMap_map, List.nodup_iff_pairwise_ne,
    List.pairwise_filterMap]
  refine List.Pairwise.imp_of_mem (fun {c d} hc hd hne => ?_) (ht.pairwise_children loc)
  have hfile : ∀ child ∈ tree.children loc, ∀ locale,
      (if tree.hasFile (dir.child child.1) then localeOf? (dir.child child.1) else none) =
        some locale → child.1 = locale ++ ".json" := by
    intro child hchild locale h
    split at h
    · exact ((localeOf?_child htext (ht.isName_of_mem_children hchild)).1 h).1
    · cases h
  rintro locale hlocale other hother rfl
  exact hne ((hfile c hc _ hlocale).trans (hfile d hd _ hother).symm)

/-- An entry whose path may be spelled is found there. -/
theorem look_fileOf {content : ByteArray} (hspelled : misspelling? (fileOf dir locale) = none)
    (hshort : (locale ++ ".json").utf8ByteSize ≤ nameMax)
    (hnode : tree.node? (loc ++ [locale ++ ".json"]) = some (.file content)) :
    tree.look (fileOf dir locale) = .ok (loc ++ [locale ++ ".json"], .file content) := by
  obtain ⟨hlocate, hdirectory⟩ := locateDirectory_eq_ok hdir
  have hname := ht.isName_of_mem_children (ht.mem_children.2 hnode)
  exact look_of_locate (locate_child hlocate hdirectory hname hspelled hshort) hnode

/-- What is loaded for a locale is read from the file that it was found by. -/
theorem load_of_mem_found (h : locale ∈ found tree dir loc) :
    ∃ name content, tree.node? (loc ++ [name]) = some (.file content) ∧
      localeOf? (dir.child name) = some locale ∧ fileOf dir locale = dir.child name ∧
      load tree dir locale =
        (ofContent locale (dir.child name) content).mapError (⟨locale, dir.child name, ·⟩) := by
  obtain ⟨hne, content, hlook⟩ := (mem_found ht hdir).1 h
  have htext := text_ne_of_locate (locateDirectory_eq_ok hdir).1
  have hnode := (look_eq_ok hlook).2
  have hname := ht.isName_of_mem_children (ht.mem_children.2 hnode)
  refine ⟨_, content, hnode, (localeOf?_child htext hname).2 ⟨rfl, hne⟩, rfl, ?_⟩
  have hread : tree.read (fileOf dir locale) = .ok content := by
    rw [FileTree.read, hlook]
    rfl
  rw [load, hread]
  rfl

/-- The locales are those of the files in the directory that are found at their paths, each file's
once and in their order, whatever the order in which the entries are listed; a path that may be
spelled finds its file. What is loaded for a locale is read from the file it was found by. -/
theorem locales_are_the_files (default : String) :
    (∀ locale, locale ∈ discover tree dir default ↔ locale ≠ "" ∧ ∃ content,
      tree.look (fileOf dir locale) = .ok (loc ++ [locale ++ ".json"], .file content)) ∧
    (∀ locale, misspelling? (fileOf dir locale) = none →
      (locale ++ ".json").utf8ByteSize ≤ nameMax →
      (locale ∈ discover tree dir default ↔ locale ≠ "" ∧ ∃ content,
        tree.node? (loc ++ [locale ++ ".json"]) = some (.file content))) ∧
    (discover tree dir default).Perm (found tree dir loc) ∧
    IsOrdered default (discover tree dir default) ∧
    (∀ tree', tree.SameEntries tree' →
      discover tree' dir default = discover tree dir default) ∧
    ∀ locale ∈ discover tree dir default, ∃ name content,
      tree.node? (loc ++ [name]) = some (.file content) ∧
      localeOf? (dir.child name) = some locale ∧ fileOf dir locale = dir.child name ∧
      load tree dir locale =
        (ofContent locale (dir.child name) content).mapError (⟨locale, dir.child name, ·⟩) := by
  have hmem : ∀ locale, locale ∈ discover tree dir default ↔ locale ∈ found tree dir loc :=
    fun locale => mem_discover hdir default
  have hordered := isOrdered_discover hdir default
  refine ⟨?_, ?_, ?_, hordered, ?_, ?_⟩
  · intro locale
    rw [hmem, mem_found ht hdir]
  · intro locale hspelled hshort
    rw [hmem, mem_found ht hdir]
    refine and_congr_right fun _ => exists_congr fun content => ?_
    exact ⟨fun hlook => (look_eq_ok hlook).2, look_fileOf ht hdir hspelled hshort⟩
  · exact (List.perm_ext_iff_of_nodup hordered.nodup (nodup_found ht hdir)).2 hmem
  · intro tree' h
    exact discover_of_sameEntries hdir default ht h
  · intro locale hlocale
    exact load_of_mem_found ht hdir ((hmem locale).1 hlocale)

end

/-- A directory of catalogs with two more files, whose names are no catalog's, and a directory
whose name would be one. -/
def mixedTree : FileTree :=
  ⟨["site"], [(["site"], .directory), (["site", "zh.json"], .file .empty),
    (["site", "it.d.json"], .file .empty), (["site", ".json"], .file .empty),
    (["site", "en.json"], .file .empty), (["site", "de.json"], .file .empty),
    (["site", "notes.txt"], .file .empty), (["site", "fr.json"], .directory)]⟩

theorem wellFormed_mixedTree : mixedTree.WellFormed where
  distinct := by decide
  named := by decide
  closed := by
    intro loc hloc
    simp only [mixedTree, Assoc.names, List.map_cons, List.map_nil, List.mem_cons,
      List.not_mem_nil, or_false] at hloc
    rcases hloc with rfl | rfl | rfl | rfl | rfl | rfl | rfl | rfl <;> rfl

/-- The name with two dots is that of a locale with one, and the hidden file is none's. -/
theorem locales_are_the_files_mixed :
    mixedTree.WellFormed ∧ mixedTree.locateDirectory ⟨"."⟩ = .ok ["site"] ∧
      "it.d" ∈ discover mixedTree ⟨"."⟩ "en" ∧ "" ∉ discover mixedTree ⟨"."⟩ "en" ∧
      "fr" ∉ discover mixedTree ⟨"."⟩ "en" ∧ IsOrdered "en" (discover mixedTree ⟨"."⟩ "en") ∧
      discover mixedTree ⟨"."⟩ "en" = ["en", "de", "it.d", "zh"] := by
  have hdir : mixedTree.locateDirectory ⟨"."⟩ = .ok ["site"] := by rfl
  obtain ⟨hmem, -, -, hordered, -⟩ := locales_are_the_files wellFormed_mixedTree hdir "en"
  refine ⟨wellFormed_mixedTree, hdir, (hmem _).2 ⟨by decide, .empty, rfl⟩,
    fun h => ((hmem _).1 h).1 rfl, fun h => ?_, hordered, by decide⟩
  obtain ⟨-, content, hfile⟩ := (hmem _).1 h
  cases hfile

end Catalog

end CatalogAudit
