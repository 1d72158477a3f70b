/-
  CatalogAudit.Proofs.SourceFiles.Spelling — the spelling of the root does not show.

  A root may be spelled in many ways: with a `.` in front, with slashes that are doubled or at
  the end, through the directory above, from the root directory of the tree. Rules are matched
  against the path of a file below it, and logs show the same path. It is the names on the way
  to the file, joined by slashes, whatever the root looks like (`relativeTo_files`); and as
  those names are all that the choice of files asks for, two spellings of one directory list
  the same ones (`ways_eq_of_spelling`), as long as neither makes a path too long to be opened.
-/

import CatalogAudit.Proofs.SourceFiles.Listing

namespace CatalogAudit

open Text

namespace SourceFiles

variable {tree : FileTree} {root other : Path} {loc : Location}

/-- Files that are given by the names on the way to them, as they are seen from the root. -/
theorem relativeTo_files (hroot : root.text ≠ "") {ways : List (List String)}
    (h : ∀ names ∈ ways, ∀ name ∈ names, Path.IsName name) :
    (ways.map (·.foldl Path.child root)).map (·.relativeTo root) = ways.map (joined "/") := by
  rw [List.map_map]
  apply List.map_congr_left
  intro names hnames
  exact Path.relativeTo_of_components (Path.components_foldl_child hroot (h names hnames))

/-- Whether a file is listed is asked of its name and of its path below the root, and of the
directories on the way to it where one of them cannot be opened. -/
theorem ways_eq_of_spelling (ht : tree.WellFormed) (hroot : tree.locateDirectory root = .ok loc)
    (hother : tree.locateDirectory other = .ok loc) (hskipped : skippedOf (walk tree root) = [])
    (hskipped' : skippedOf (walk tree other) = []) (s : Selection) :
    ways tree root loc s = ways tree other loc s := by
  obtain ⟨hlocate, hloc⟩ := FileTree.locateDirectory_eq_ok hroot
  have htext := FileTree.text_ne_of_locate hlocate
  have htext' := FileTree.text_ne_of_locate (FileTree.locateDirectory_eq_ok hother).1
  have hopens : (waysBelow tree loc).filter (opens tree root) = waysBelow tree loc :=
    List.filter_eq_self.2 fun _ => opens_of_mem_waysBelow ht hroot hskipped
  have hopens' : (waysBelow tree loc).filter (opens tree other) = waysBelow tree loc :=
    List.filter_eq_self.2 fun _ => opens_of_mem_waysBelow ht hother hskipped'
  unfold ways
  rw [hopens, hopens']
  congr 1
  apply List.filter_congr
  intro names hnames
  have hsource :
      isSource (names.foldl Path.child root) = isSource (names.foldl Path.child other) := by
    rw [Bool.eq_iff_iff, isSource_of_mem_waysBelow ht htext hloc hnames,
      isSource_of_mem_waysBelow ht htext' hloc hnames]
  rw [hsource, selects_of_mem_waysBelow ht htext hloc hnames,
    selects_of_mem_waysBelow ht htext' hloc hnames]

theorem relativeTo_listed (ht : tree.WellFormed) (hroot : tree.locateDirectory root = .ok loc)
    (s : Selection) :
    ((ways tree root loc s).map (·.foldl Path.child root)).map (·.relativeTo root) =
      (ways tree root loc s).map (joined "/") := by
  obtain ⟨hlocate, hloc⟩ := FileTree.locateDirectory_eq_ok hroot
  exact relativeTo_files (FileTree.text_ne_of_locate hlocate) fun names =>
    isName_of_mem_ways ht hloc

theorem displayPath_eq {p : Project} (h : p.sourceDir = root) :
    p.displayPath = (·.relativeTo root) := by
  funext file
  rw [Project.displayPath, h]

/-- Below a root a file is seen as the names on the way to it, joined by slashes, by the rules and
in the logs of a project with that root. So where two roots lead to one directory and no directory
below it is skipped, the same files are listed in the same order, the rules are matched against the
same paths, and logs show the same. -/
theorem root_spelling_never_shows (hroot : root.text ≠ "") :
    (∀ names : List String, (∀ name ∈ names, Path.IsName name) →
      (names.foldl Path.child root).relativeTo root = joined "/" names ∧
        ∀ p : Project, p.sourceDir = root →
          p.displayPath (names.foldl Path.child root) = joined "/" names) ∧
    ∀ (tree : FileTree) (other : Path) (loc : Location) (s : Selection), tree.WellFormed →
      tree.locateDirectory root = .ok loc → tree.locateDirectory other = .ok loc →
        ∃ listed others, list tree root s = .ok listed ∧ list tree other s = .ok others ∧
          (listed.skipped = [] → others.skipped = [] →
            listed.files.map (·.relativeTo root) = others.files.map (·.relativeTo other) ∧
              ∀ p q : Project, p.sourceDir = root → q.sourceDir = other →
                listed.files.map p.displayPath = others.files.map q.displayPath) := by
  refine ⟨?_, ?_⟩
  · intro names hnames
    have hbelow := Path.relativeTo_of_components (Path.components_foldl_child hroot hnames)
    refine ⟨hbelow, ?_⟩
    intro p hp
    rw [displayPath_eq hp]
    exact hbelow
  · intro tree other loc s ht hlocated hlocated'
    refine ⟨_, _, list_eq_ok ht hlocated s, list_eq_ok ht hlocated' s, ?_⟩
    intro hskipped hskipped'
    have hsame := ways_eq_of_spelling ht hlocated hlocated' hskipped hskipped' s
    have hseen : ((ways tree root loc s).map (·.foldl Path.child root)).map (·.relativeTo root) =
        ((ways tree other loc s).map (·.foldl Path.child other)).map (·.relativeTo other) := by
      rw [relativeTo_listed ht hlocated, relativeTo_listed ht hlocated', hsame]
    refine ⟨hseen, ?_⟩
    intro p q hp hq
    rw [displayPath_eq hp, displayPath_eq hq]
    exact hseen

/-- A root that is reached through the directory above it, and from the root of the tree. -/
theorem root_spelling_never_shows_site :
    let root : Path := ⟨"../site//./"⟩
    let other : Path := ⟨"/site"⟩
    let names := ["src", "page.tsx"]
    root.text ≠ "" ∧ (∀ name ∈ names, Path.IsName name) ∧ siteTree.WellFormed ∧
      siteTree.locateDirectory root = .ok ["site"] ∧
      siteTree.locateDirectory other = .ok ["site"] ∧
      names.foldl Path.child root = ⟨"../site//./src/page.tsx"⟩ ∧
      (names.foldl Path.child root).relativeTo root = "src/page.tsx" ∧
      ∃ listed others, list siteTree root (Project.selection siteConfig) = .ok listed ∧
        list siteTree other (Project.selection siteConfig) = .ok others ∧
        listed.skipped = [] ∧ others.skipped = [] ∧ listed.files ≠ others.files ∧
        listed.files.map (·.relativeTo root) = others.files.map (·.relativeTo other) := by
  intro root other names
  have hroot : root.text ≠ "" := by decide
  have hnames : ∀ name ∈ names, Path.IsName name := by decide
  have hlocated : siteTree.locateDirectory ⟨"../site//./"⟩ = .ok ["site"] := by rfl
  have hlocated' : siteTree.locateDirectory ⟨"/site"⟩ = .ok ["site"] := by rfl
  obtain ⟨hbelow, hshown⟩ := root_spelling_never_shows hroot
  obtain ⟨listed, others, hlisted, hothers, hsame⟩ := hshown siteTree other ["site"]
    (Project.selection siteConfig) wellFormed_siteTree hlocated hlocated'
  have hlisted' : list siteTree root (Project.selection siteConfig) =
      .ok ⟨[⟨"../site//./src/page.tsx"⟩], []⟩ := by
    decide +kernel
  have hothers' : list siteTree other (Project.selection siteConfig) =
      .ok ⟨[⟨"/site/src/page.tsx"⟩], []⟩ := by
    decide +kernel
  cases hlisted.symm.trans hlisted'
  cases hothers.symm.trans hothers'
  refine ⟨hroot, hnames, wellFormed_siteTree, hlocated, hlocated', by decide, ?_, _, _, hlisted,
    hothers, rfl, rfl, by decide, (hsame rfl rfl).1⟩
  rw [(hbelow names hnames).1]
  decide

end SourceFiles

end CatalogAudit
