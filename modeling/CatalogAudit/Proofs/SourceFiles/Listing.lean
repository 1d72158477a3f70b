/-
  CatalogAudit.Proofs.SourceFiles.Listing — which files are listed, and in which order.

  A file below a root is given by the names on the way to it. Whether it is listed depends on
  the tree, on the last name and on the path that the names spell, never on the spelling of
  the root: `IsListed` says when, entry by entry of the config and without its lists of rules.
  In a valid config every entry has its rule (`rules_of_valid`), so includes that are given
  are never taken for none.

  `list_is_exact` says that the files of the list are these and no others, each one once and in
  the order of their names, component by component. A directory is opened by its path from the
  root, and one whose path is too long cannot be: files behind it are left out, and then the
  list says that something was skipped.
-/

import CatalogAudit.Proofs.PathRule.Covering
import CatalogAudit.Proofs.SourceFiles.Names
import CatalogAudit.Proofs.SourceFiles.Walk
import CatalogAudit.Project

namespace CatalogAudit

open Text

/-! ## Entries -/

namespace Config

theorem parse_of_faultyEntry? {entries : List String} (h : faultyEntry? entries = none) :
    ∀ entry ∈ entries, ∃ rule, PathRule.parse entry = .ok rule := by
  intro entry hentry
  have hnone := List.findSome?_eq_none_iff.1 h entry hentry
  cases hparse : PathRule.parse entry with
  | ok rule => exact ⟨rule, rfl⟩
  | error e => simp [hparse] at hnone

theorem faultyEntry?_of_valid {c : Config} (h : c.invalid? = none) :
    faultyEntry? c.ignores = none ∧ faultyEntry? c.includes = none := by
  unfold invalid? at h
  split at h
  · cases h
  · next hignores =>
    split at h
    · cases h
    · next hincludes => exact ⟨hignores, hincludes⟩

end Config

namespace SourceFiles

theorem any_covers_rules {entries : List String} {path : String} :
    (rules entries).1.any (·.covers path) = true ↔
      ∃ entry ∈ entries, PathRule.EntryCovers entry path := by
  simp only [rules, List.any_eq_true, List.mem_filterMap, PathRule.covers_iff]
  constructor
  · rintro ⟨rule, ⟨entry, hentry, hrule⟩, hcovers⟩
    cases hparse : PathRule.parse entry with
    | ok parsed =>
      rw [hparse] at hrule
      cases hrule
      exact ⟨entry, hentry, rule, hparse, hcovers⟩
    | error e =>
      rw [hparse] at hrule
      cases hrule
  · rintro ⟨entry, hentry, rule, hparse, hcovers⟩
    exact ⟨rule, ⟨entry, hentry, by rw [hparse]; rfl⟩, hcovers⟩

/-- Where no entry is faulty, each one has its rule, in order. -/
theorem rules_of_valid {entries : List String}
    (h : ∀ entry ∈ entries, ∃ rule, PathRule.parse entry = .ok rule) :
    entries.map PathRule.parse = (rules entries).1.map .ok := by
  induction entries with
  | nil => rfl
  | cons entry entries ih =>
    obtain ⟨⟨rule, hparse⟩, hentries⟩ := List.forall_mem_cons.1 h
    have hrules : (rules (entry :: entries)).1 = rule :: (rules entries).1 := by
      simp [rules, hparse, Except.toOption]
    rw [hrules, List.map_cons, List.map_cons, hparse, ih hentries]

theorem selects_iff {s : Selection}
    (h : ∀ entry ∈ s.includes, ∃ rule, PathRule.parse entry = .ok rule) {path : String} :
    s.selects path = true ↔
      (s.includes = [] ∨ ∃ entry ∈ s.includes, PathRule.EntryCovers entry path) ∧
        (∀ entry ∈ s.ignores, ¬ PathRule.EntryCovers entry path) ∧
        (s.ignoreTestFiles = true → ∀ entry ∈ testFilePatterns,
          ¬ PathRule.EntryCovers entry path) := by
  have hempty : (rules s.includes).1.isEmpty = true ↔ s.includes = [] := by
    have hlength := congrArg List.length (rules_of_valid h)
    rw [List.length_map, List.length_map] at hlength
    rw [List.isEmpty_iff_length_eq_zero, ← hlength, List.length_eq_zero_iff]
  have hignored : s.ignoreRules.any (·.covers path) = true ↔
      (∃ entry ∈ s.ignores, PathRule.EntryCovers entry path) ∨
        (s.ignoreTestFiles = true ∧ ∃ entry ∈ testFilePatterns,
          PathRule.EntryCovers entry path) := by
    rw [Selection.ignoreRules, List.any_append, Bool.or_eq_true, any_covers_rules]
    cases s.ignoreTestFiles with
    | true => rw [if_pos rfl, any_covers_rules, eq_self, true_and]
    | false => simp
  rw [Selection.selects, Bool.and_eq_true, Bool.or_eq_true, hempty, any_covers_rules,
    Bool.not_eq_true', ← Bool.not_eq_true, hignored]
  simp

/-! ## The list -/

/-- What makes the file that the names lead to, from a root at `loc`, one that is listed. -/
structure IsListed (tree : FileTree) (loc : Location) (config : Config) (names : List String) :
    Prop where
  regular : ∃ content, tree.node? (loc ++ names) = some (.file content)
  extension : ∃ stem, ∃ ext ∈ ["tsx", "ts", "jsx", "js", "mjs", "cjs"],
    names.getLast? = some (stem ++ "." ++ ext) ∧ stem ≠ ""
  noDeclaration : ∀ stem, names.getLast? ≠ some (stem ++ ".d.ts")
  noDependency : ∀ way name, way ++ [name] <+: names →
    tree.node? (loc ++ (way ++ [name])) = some .directory →
      name ∉ ["node_modules", "bower_components", "vendor", ".git", ".next"]
  included : config.includes = [] ∨
    ∃ entry ∈ config.includes, PathRule.EntryCovers entry (joined "/" names)
  notIgnored : ∀ entry ∈ config.ignores, ¬ PathRule.EntryCovers entry (joined "/" names)
  noTest : config.ignoreTestFiles = true →
    ∀ pattern ∈ ["**/*.test.*", "**/*.spec.*", "**/__tests__/**"],
      ¬ PathRule.EntryCovers pattern (joined "/" names)

section List

variable {tree : FileTree} {root : Path} {loc : Location} {config : Config}
  {names : List String}

theorem isSource_of_mem_waysBelow (ht : tree.WellFormed) (hroot : root.text ≠ "")
    (hloc : tree.node? loc = some .directory) (h : names ∈ waysBelow tree loc) :
    isSource (names.foldl Path.child root) = true ↔
      (∃ stem, ∃ ext ∈ extensions, names.getLast? = some (stem ++ "." ++ ext) ∧ stem ≠ "") ∧
        ∀ stem, names.getLast? ≠ some (stem ++ ".d.ts") := by
  obtain ⟨hne, hnames⟩ := isName_of_mem_waysBelow ht hloc h
  have hname := Path.fileName?_of_components (Path.components_foldl_child hroot hnames) hne
  rw [List.getLast?_eq_some_getLast hne] at hname ⊢
  simp only [isSource_iff hname, ne_eq, Option.some.injEq]

theorem selects_of_mem_waysBelow (ht : tree.WellFormed) (hroot : root.text ≠ "")
    (hloc : tree.node? loc = some .directory) (h : names ∈ waysBelow tree loc) (s : Selection) :
    s.selects ((names.foldl Path.child root).relativeTo root) =
      s.selects (joined "/" names) := by
  obtain ⟨-, hnames⟩ := isName_of_mem_waysBelow ht hloc h
  rw [Path.relativeTo_of_components (Path.components_foldl_child hroot hnames)]

theorem isListed_iff (ht : tree.WellFormed) (hroot : root.text ≠ "")
    (hloc : tree.node? loc = some .directory) (hconfig : config.invalid? = none) :
    IsListed tree loc config names ↔
      names ∈ waysBelow tree loc ∧
        isSource (names.foldl Path.child root) = true ∧
        (Project.selection config).selects
          ((names.foldl Path.child root).relativeTo root) = true := by
  have hselects : (Project.selection config).selects (joined "/" names) = true ↔ _ :=
    selects_iff (Config.parse_of_faultyEntry? (Config.faultyEntry?_of_valid hconfig).2)
  constructor
  · intro h
    have hmem := (mem_waysBelow ht hloc).2 ⟨h.regular, h.noDependency⟩
    rw [isSource_of_mem_waysBelow ht hroot hloc hmem,
      selects_of_mem_waysBelow ht hroot hloc hmem, hselects]
    exact ⟨hmem, ⟨h.extension, h.noDeclaration⟩, h.included, h.notIgnored, h.noTest⟩
  · rintro ⟨hmem, hsource, hselected⟩
    rw [isSource_of_mem_waysBelow ht hroot hloc hmem] at hsource
    rw [selects_of_mem_waysBelow ht hroot hloc hmem, hselects] at hselected
    obtain ⟨hregular, hdependency⟩ := (mem_waysBelow ht hloc).1 hmem
    obtain ⟨hextension, hdeclaration⟩ := hsource
    obtain ⟨hincluded, hignored, htest⟩ := hselected
    exact ⟨hregular, hextension, hdeclaration, hdependency, hincluded, hignored, htest⟩

/-- The ways to the listed files, in order. -/
def ways (tree : FileTree) (root : Path) (loc : Location) (s : Selection) : List (List String) :=
  (((waysBelow tree loc).filter (opens tree root)).filter fun names =>
    isSource (names.foldl Path.child root) &&
      s.selects ((names.foldl Path.child root).relativeTo root)).mergeSort Path.namesLe

theorem mem_waysBelow_of_mem_ways {s : Selection} (h : names ∈ ways tree root loc s) :
    names ∈ waysBelow tree loc := by
  rw [ways, List.mem_mergeSort] at h
  exact (List.mem_filter.1 (List.mem_filter.1 h).1).1

theorem isName_of_mem_ways (ht : tree.WellFormed) (hloc : tree.node? loc = some .directory)
    {s : Selection} (h : names ∈ ways tree root loc s) :
    ∀ name ∈ names, Path.IsName name :=
  (isName_of_mem_waysBelow ht hloc (mem_waysBelow_of_mem_ways h)).2

theorem opens_of_mem_waysBelow (ht : tree.WellFormed)
    (hroot : tree.locateDirectory root = .ok loc) (hskipped : skippedOf (walk tree root) = [])
    (h : names ∈ waysBelow tree loc) : opens tree root names = true := by
  have htext := FileTree.text_ne_of_locate (FileTree.locateDirectory_eq_ok hroot).1
  rw [waysBelow, ← destination_of_locateDirectory hroot] at h
  exact opens_of_skippedOf ht htext hskipped h

theorem list_eq_ok (ht : tree.WellFormed) (hroot : tree.locateDirectory root = .ok loc)
    (s : Selection) :
    list tree root s =
      .ok ⟨(ways tree root loc s).map (·.foldl Path.child root), skippedOf (walk tree root)⟩ := by
  obtain ⟨hlocate, hloc⟩ := FileTree.locateDirectory_eq_ok hroot
  have htext := FileTree.text_ne_of_locate hlocate
  have hfiles := filesOf_walkWithin ht htext (tree.depth + 1)
  rw [destination_of_locateDirectory hroot, ← waysBelow, ← walk] at hfiles
  rw [list, hroot]
  dsimp only
  rw [hfiles, ways, List.filter_map, List.map_mergeSort]
  · rfl
  · intro names hnames others hothers
    have hmem (names : List String)
        (h : names ∈ ((waysBelow tree loc).filter (opens tree root)).filter
          ((fun file => isSource file && s.selects (file.relativeTo root)) ∘
            (·.foldl Path.child root))) : ∀ name ∈ names, Path.IsName name :=
      (isName_of_mem_waysBelow ht hloc (List.mem_filter.1 (List.mem_filter.1 h).1).1).2
    exact (Path.le_of_components (Path.components_foldl_child htext (hmem names hnames))
      (Path.components_foldl_child htext (hmem others hothers))).symm

/-- The files of the list, in a tree as it is on a disk and by the entries of a valid config.
Each path leads where its names say, if it can be followed. The files ascend by the names on
the way to them, and no entry of the config is without a rule. A file is left out for its way
alone only when the list says that something was skipped. -/
theorem list_is_exact (ht : tree.WellFormed) (hroot : tree.locateDirectory root = .ok loc)
    (hconfig : config.invalid? = none) :
    ∃ (ways : List (List String)) (skipped : List Skipped),
      list tree root (Project.selection config) =
        .ok ⟨ways.map (·.foldl Path.child root), skipped⟩ ∧
      (ways.map (·.foldl Path.child root)).Nodup ∧
      (∀ names, names ∈ ways ↔ IsListed tree loc config names ∧ opens tree root names = true) ∧
      (skipped = [] → ∀ names, names ∈ ways ↔ IsListed tree loc config names) ∧
      (∀ names ∈ ways, ∀ l, tree.locate (names.foldl Path.child root) = .ok l → l = loc ++ names) ∧
      ways.Pairwise (· < ·) ∧
      config.includes.map PathRule.parse = (rules config.includes).1.map .ok ∧
      config.ignores.map PathRule.parse = (rules config.ignores).1.map .ok := by
  obtain ⟨hlocate, hloc⟩ := FileTree.locateDirectory_eq_ok hroot
  have htext := FileTree.text_ne_of_locate hlocate
  obtain ⟨hignores, hincludes⟩ := Config.faultyEntry?_of_valid hconfig
  have hsorted : (ways tree root loc (Project.selection config)).Pairwise (· < ·) :=
    Path.pairwise_mergeSort_namesLe (((nodup_waysWithin ht _ loc).filter _).filter _)
  have hmem : ∀ names, names ∈ ways tree root loc (Project.selection config) ↔
      IsListed tree loc config names ∧ opens tree root names = true := by
    intro names
    rw [isListed_iff ht htext hloc hconfig, ways, List.mem_mergeSort, List.mem_filter,
      List.mem_filter, Bool.and_eq_true]
    exact and_right_comm
  refine ⟨ways tree root loc (Project.selection config), _, list_eq_ok ht hroot _, ?_, hmem, ?_, ?_,
    hsorted, rules_of_valid (Config.parse_of_faultyEntry? hincludes),
    rules_of_valid (Config.parse_of_faultyEntry? hignores)⟩
  · refine List.pairwise_map.2 (hsorted.imp_of_mem fun hnames hothers hlt e => ?_)
    have hsame := Path.foldl_child_inj htext (isName_of_mem_ways ht hloc hnames)
      (isName_of_mem_ways ht hloc hothers) e
    rw [hsame] at hlt
    exact List.lt_irrefl _ hlt
  · intro hskipped names
    rw [hmem, and_iff_left_iff_imp]
    intro hlisted
    have hbelow := ((isListed_iff ht htext hloc hconfig).1 hlisted).1
    exact opens_of_mem_waysBelow ht hroot hskipped hbelow
  · intro names hnames l hl
    rw [FileTree.eq_destination_of_locate hl, FileTree.eq_destination_of_locate hlocate]
    exact FileTree.destination_foldl_child tree htext (isName_of_mem_ways ht hloc hnames)

end List

/-- A page, its test, and a library that came with its directory. -/
def siteTree : FileTree :=
  ⟨["site"], [(["site"], .directory), (["site", "src"], .directory),
    (["site", "src", "page.tsx"], .file .empty), (["site", "src", "page.test.tsx"], .file .empty),
    (["site", "src", "vendor"], .directory), (["site", "src", "vendor", "lib.js"], .file .empty)]⟩

def siteConfig : Config := { Config.default with ignores := ["src/old/**"] }

theorem wellFormed_siteTree : siteTree.WellFormed where
  distinct := by decide
  named := by decide
  closed := by
    intro loc hloc
    simp only [siteTree, Assoc.names, List.map_cons, List.map_nil, List.mem_cons,
      List.not_mem_nil, or_false] at hloc
    rcases hloc with rfl | rfl | rfl | rfl | rfl | rfl <;> rfl

/-- The page is listed, the test and the library are not. -/
theorem list_is_exact_site :
    siteTree.WellFormed ∧ siteTree.locateDirectory ⟨"."⟩ = .ok ["site"] ∧
      siteConfig.invalid? = none ∧
      ∃ (ways : List (List String)) (skipped : List Skipped),
        list siteTree ⟨"."⟩ (Project.selection siteConfig) =
          .ok ⟨ways.map (·.foldl Path.child ⟨"."⟩), skipped⟩ ∧
        ["src", "page.tsx"] ∈ ways ∧ ["src", "page.test.tsx"] ∉ ways ∧
        ["src", "vendor", "lib.js"] ∉ ways := by
  have hroot : siteTree.locateDirectory ⟨"."⟩ = .ok ["site"] := by rfl
  have hconfig : siteConfig.invalid? = none := by decide
  obtain ⟨ways, skipped, hlist, -, hways, -⟩ := list_is_exact wellFormed_siteTree hroot hconfig
  refine ⟨wellFormed_siteTree, hroot, hconfig, ways, skipped, hlist, (hways _).2 ?_, ?_, ?_⟩
  · have htext : (⟨"."⟩ : Path).text ≠ "" := by decide
    exact ⟨(isListed_iff wellFormed_siteTree htext rfl hconfig).2
      ⟨by decide, by decide, by decide⟩, by decide⟩
  · intro h
    refine ((hways _).1 h).1.noTest rfl "**/*.test.*" (by decide) ?_
    exact ⟨_, rfl, PathRule.covers_iff.1 (by decide)⟩
  · intro h
    exact ((hways _).1 h).1.noDependency ["src"] "vendor" (by decide) rfl (by decide)

end SourceFiles

end CatalogAudit
