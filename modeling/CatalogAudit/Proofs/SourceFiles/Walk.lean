/-
  CatalogAudit.Proofs.SourceFiles.Walk — the files that a walk finds.

  A walk goes down from a directory and into every directory but those of dependencies. The
  ways to the files down there go through directories that are walked into (`mem_waysWithin`),
  and no way comes twice (`nodup_waysWithin`). With more steps than the tree is deep they lead to
  all regular files with no directory of dependencies on the way (`mem_waysBelow`).

  The walk itself opens each directory by its path. It finds the files whose ways open
  (`filesOf_walkWithin`), each by the names on the way to it, and where it skips nothing all of
  them do (`opens_of_skippedOf`).
-/

import CatalogAudit.Proofs.FileTree.WellFormed
import CatalogAudit.SourceFiles
import Mathlib.Data.List.Basic

namespace CatalogAudit

namespace SourceFiles

/-! ## The ways to the files -/

/-- The ways through an entry of a directory, when those below it are given. -/
def waysThrough (name : String) (node : Node) (below : List (List String)) :
    List (List String) :=
  match node with
  | .file _ => [[name]]
  | .directory => if dependencyDirectories.contains name then [] else below.map (name :: ·)
  | .device => []

/-- The names on the way to each file that a walk of at most `steps` steps finds. -/
def waysWithin (tree : FileTree) : (steps : Nat) → (loc : Location) → List (List String)
  | 0, _ => []
  | steps + 1, loc =>
    (tree.children loc).flatMap fun (name, node) =>
      waysThrough name node (waysWithin tree steps (loc ++ [name]))

section Ways

variable {name : String} {node : Node} {below : List (List String)} {names : List String}

theorem mem_waysThrough :
    names ∈ waysThrough name node below ↔
      (∃ content, node = .file content ∧ names = [name]) ∨
        (node = .directory ∧ name ∉ dependencyDirectories ∧
          ∃ more ∈ below, names = name :: more) := by
  cases node with
  | file content => simp [waysThrough]
  | directory =>
    by_cases hdep : name ∈ dependencyDirectories
    · simp [waysThrough, hdep]
    · simp [waysThrough, hdep, eq_comm]
  | device => simp [waysThrough]

theorem head?_of_mem_waysThrough (h : names ∈ waysThrough name node below) :
    names.head? = some name := by
  rcases mem_waysThrough.1 h with ⟨-, -, rfl⟩ | ⟨-, -, more, -, rfl⟩
  · rfl
  · rfl

theorem nodup_waysThrough (h : below.Nodup) : (waysThrough name node below).Nodup := by
  unfold waysThrough
  split
  · exact List.pairwise_singleton _ _
  · split
    · exact List.nodup_nil
    · exact List.pairwise_map.2 (h.imp fun hne e => hne (List.cons.inj e).2)
  · exact List.nodup_nil

end Ways

/-- No file is found twice: the ways through different entries start differently. -/
theorem nodup_waysWithin {tree : FileTree} (ht : tree.WellFormed) (steps : Nat)
    (loc : Location) : (waysWithin tree steps loc).Nodup := by
  induction steps generalizing loc with
  | zero => exact List.nodup_nil
  | succ steps ih =>
    rw [waysWithin, List.Nodup, List.pairwise_flatMap]
    refine ⟨fun child _ => nodup_waysThrough (ih _), ?_⟩
    refine (ht.pairwise_children loc).imp fun {c d} hne names hnames others hothers e => ?_
    have hc := head?_of_mem_waysThrough hnames
    have hd := head?_of_mem_waysThrough hothers
    rw [e, hd] at hc
    exact hne (Option.some.inj hc).symm

/-! ## The files that are found -/

section Walk

variable {tree : FileTree} {loc : Location} {names : List String}

/-- A file and the way to it through directories that are walked into. -/
inductive Walked (tree : FileTree) : Location → List String → Prop
  | file {loc : Location} {name : String} {content : ByteArray} :
      tree.node? (loc ++ [name]) = some (.file content) → Walked tree loc [name]
  | inside {loc : Location} {name : String} {names : List String} :
      tree.node? (loc ++ [name]) = some .directory → name ∉ dependencyDirectories →
        Walked tree (loc ++ [name]) names → Walked tree loc (name :: names)

/-- The walk finds the files whose way is not longer than its steps. -/
theorem mem_waysWithin (ht : tree.WellFormed) {steps : Nat} :
    names ∈ waysWithin tree steps loc ↔ Walked tree loc names ∧ names.length ≤ steps := by
  induction steps generalizing loc names with
  | zero =>
    constructor
    · intro h
      cases h
    · rintro ⟨hwalked, hlength⟩
      cases hwalked <;> simp at hlength
  | succ steps ih =>
    rw [waysWithin, List.mem_flatMap]
    constructor
    · rintro ⟨⟨name, node⟩, hchild, hnames⟩
      have hnode := ht.mem_children.1 hchild
      rcases mem_waysThrough.1 hnames with ⟨content, rfl, rfl⟩ | ⟨rfl, hdep, more, hmore, rfl⟩
      · exact ⟨.file hnode, by simp⟩
      · obtain ⟨hwalked, hlength⟩ := ih.1 hmore
        refine ⟨.inside hnode hdep hwalked, ?_⟩
        rw [List.length_cons]
        omega
    · rintro ⟨hwalked, hlength⟩
      cases hwalked with
      | @file loc name content hnode =>
        exact ⟨(name, .file content), ht.mem_children.2 hnode, List.mem_singleton.2 rfl⟩
      | @inside loc name more hnode hdep hwalked =>
        rw [List.length_cons] at hlength
        refine ⟨(name, .directory), ht.mem_children.2 hnode, mem_waysThrough.2 (.inr ?_)⟩
        exact ⟨rfl, hdep, more, ih.2 ⟨hwalked, by omega⟩, rfl⟩

/-- All that stands before the end of the way to a file are directories. -/
theorem walked_iff (ht : tree.WellFormed) (hloc : tree.node? loc = some .directory) :
    Walked tree loc names ↔
      (∃ content, tree.node? (loc ++ names) = some (.file content)) ∧
        ∀ way name, way ++ [name] <+: names →
          tree.node? (loc ++ (way ++ [name])) = some .directory →
            name ∉ dependencyDirectories := by
  constructor
  · intro h
    clear hloc
    induction h with
    | @file loc name content hnode =>
      refine ⟨⟨content, hnode⟩, fun way other hprefix hdirectory => ?_⟩
      cases way with
      | nil =>
        obtain rfl : other = name := by simpa using hprefix
        rw [List.nil_append, hnode] at hdirectory
        cases hdirectory
      | cons first way => simp at hprefix
    | @inside loc name names hnode hdep hwalked ih =>
      obtain ⟨⟨content, hfile⟩, hway⟩ := ih
      refine ⟨⟨content, by simpa using hfile⟩, fun way other hprefix hdirectory => ?_⟩
      cases way with
      | nil =>
        obtain rfl : other = name := by simpa using hprefix
        exact hdep
      | cons first way =>
        obtain ⟨rfl, hrest⟩ := List.cons_prefix_cons.1 hprefix
        exact hway way other hrest (by simpa using hdirectory)
  · rintro ⟨⟨content, hnode⟩, hway⟩
    induction names generalizing loc with
    | nil =>
      rw [List.append_nil, hloc] at hnode
      cases hnode
    | cons name names ih =>
      cases names with
      | nil => exact .file hnode
      | cons next more =>
        rw [List.append_cons] at hnode
        have hdirectory := ht.directory_above hnode (List.cons_ne_nil next more)
        have hdep := hway [] name ⟨next :: more, rfl⟩ hdirectory
        refine .inside hdirectory hdep (ih hdirectory (fun way other hprefix hbelow => ?_) hnode)
        exact hway (name :: way) other (List.cons_prefix_cons.2 ⟨rfl, hprefix⟩)
          (by simpa using hbelow)

/-! ## All files below a directory -/

def waysBelow (tree : FileTree) (loc : Location) : List (List String) :=
  waysWithin tree (tree.depth + 1) loc

theorem mem_waysBelow (ht : tree.WellFormed) (hloc : tree.node? loc = some .directory) :
    names ∈ waysBelow tree loc ↔
      (∃ content, tree.node? (loc ++ names) = some (.file content)) ∧
        ∀ way name, way ++ [name] <+: names →
          tree.node? (loc ++ (way ++ [name])) = some .directory →
            name ∉ dependencyDirectories := by
  rw [waysBelow, mem_waysWithin ht, walked_iff ht hloc, and_iff_left_iff_imp]
  rintro ⟨⟨content, hnode⟩, -⟩
  have hne : loc ++ names ≠ [] := by
    intro e
    rw [e] at hnode
    cases hnode
  have hdepth := FileTree.length_le_depth (FileTree.mem_names_of_node? hne hnode)
  rw [List.length_append] at hdepth
  omega

/-- The names on the way to a file are such as a directory may have in it. -/
theorem isName_of_mem_waysBelow (ht : tree.WellFormed) (hloc : tree.node? loc = some .directory)
    (h : names ∈ waysBelow tree loc) : names ≠ [] ∧ ∀ name ∈ names, Path.IsName name := by
  obtain ⟨⟨content, hnode⟩, -⟩ := (mem_waysBelow ht hloc).1 h
  have hne : names ≠ [] := by
    rintro rfl
    rw [List.append_nil, hloc] at hnode
    cases hnode
  have hmem := FileTree.mem_names_of_node? (by simp [hne]) hnode
  exact ⟨hne, fun name hname => (ht.named _ hmem).2 name (List.mem_append_right loc hname)⟩

end Walk

/-! ## The walk by paths -/

/-- Whether every directory on a way opens by its path, from `dir` on. -/
def opens (tree : FileTree) : (dir : Path) → (names : List String) → Bool
  | _, [] => true
  | dir, name :: names => tree.hasDirectory dir && opens tree (dir.child name) names

section Paths

variable {tree : FileTree} {dir : Path} {name : String} {names : List String}

/-- What a walk comes upon by an entry of a directory. -/
theorem walkWithin_succ {loc : Location} (h : tree.locateDirectory dir = .ok loc) (steps : Nat) :
    walkWithin tree (steps + 1) dir = (tree.children loc).flatMap fun (name, node) =>
      match node with
      | .file _ => [.ok (dir.child name)]
      | .directory =>
        if dependencyDirectories.contains name then [] else walkWithin tree steps (dir.child name)
      | .device => [] := by
  rw [walkWithin]
  split
  · next e he =>
    rw [h] at he
    cases he
  · next l hl =>
    rw [h] at hl
    cases hl
    rfl

theorem walkWithin_of_error {e : FileError} (h : tree.locateDirectory dir = .error e)
    (steps : Nat) : walkWithin tree (steps + 1) dir = [.error ⟨dir, e⟩] := by
  rw [walkWithin, h]

theorem destination_of_locateDirectory {loc : Location}
    (h : tree.locateDirectory dir = .ok loc) : tree.destination dir = loc :=
  (FileTree.eq_destination_of_locate (FileTree.locateDirectory_eq_ok h).1).symm

theorem hasDirectory_of_locateDirectory {loc : Location}
    (h : tree.locateDirectory dir = .ok loc) : tree.hasDirectory dir = true := by
  rw [FileTree.hasDirectory_eq_isOk, h]
  rfl

/-- A walk finds the files whose ways open, by the names on these ways. -/
theorem filesOf_walkWithin (ht : tree.WellFormed) (hdir : dir.text ≠ "") (steps : Nat) :
    filesOf (walkWithin tree steps dir) =
      ((waysWithin tree steps (tree.destination dir)).filter (opens tree dir)).map
        (·.foldl Path.child dir) := by
  induction steps generalizing dir with
  | zero => rfl
  | succ steps ih =>
    rw [waysWithin]
    cases hopen : tree.locateDirectory dir with
    | error e =>
      have hclosed : tree.hasDirectory dir = false := by
        rw [FileTree.hasDirectory_eq_isOk, hopen]
        rfl
      rw [walkWithin_of_error hopen, eq_comm]
      refine List.map_eq_nil_iff.2 (List.filter_eq_nil_iff.2 fun names hnames => ?_)
      obtain ⟨⟨name, node⟩, -, hthrough⟩ := List.mem_flatMap.1 hnames
      obtain ⟨more, rfl⟩ := List.head?_eq_some_iff.1 (head?_of_mem_waysThrough hthrough)
      simp [opens, hclosed]
    | ok loc =>
      have hdirectory := hasDirectory_of_locateDirectory hopen
      rw [walkWithin_succ hopen, destination_of_locateDirectory hopen, filesOf,
        List.filterMap_flatMap, List.filter_flatMap, List.map_flatMap]
      refine List.flatMap_congr fun child hchild => ?_
      obtain ⟨name, node⟩ := child
      have hname : Path.IsName name := ht.isName_of_mem_children hchild
      cases node with
      | file content => simp [waysThrough, opens, hdirectory]
      | directory =>
        dsimp only [waysThrough]
        split
        · rfl
        · have hbelow := ih (Path.text_child_ne_empty (p := dir) hname)
          rw [FileTree.destination_child tree hdir hname,
            destination_of_locateDirectory hopen] at hbelow
          have hopens : opens tree dir ∘ (name :: ·) = opens tree (dir.child name) := by
            funext names
            simp [opens, hdirectory]
          show filesOf (walkWithin tree steps (dir.child name)) = _
          rw [hbelow, List.filter_map, hopens, List.map_map]
          rfl
      | device => rfl

/-- Where a walk skips nothing, every way opens. -/
theorem opens_of_skippedOf (ht : tree.WellFormed) (hdir : dir.text ≠ "") {steps : Nat}
    (h : skippedOf (walkWithin tree steps dir) = [])
    (hnames : names ∈ waysWithin tree steps (tree.destination dir)) :
    opens tree dir names = true := by
  induction steps generalizing dir names with
  | zero => cases hnames
  | succ steps ih =>
    cases hopen : tree.locateDirectory dir with
    | error e =>
      rw [walkWithin_of_error hopen] at h
      cases h
    | ok loc =>
      have hdirectory := hasDirectory_of_locateDirectory hopen
      rw [walkWithin_succ hopen, skippedOf, List.filterMap_flatMap, List.flatMap_eq_nil_iff] at h
      rw [waysWithin, destination_of_locateDirectory hopen] at hnames
      obtain ⟨⟨name, node⟩, hchild, hthrough⟩ := List.mem_flatMap.1 hnames
      have hname : Path.IsName name := ht.isName_of_mem_children hchild
      rcases mem_waysThrough.1 hthrough with ⟨-, -, rfl⟩ | ⟨rfl, hdep, more, hmore, rfl⟩
      · simp [opens, hdirectory]
      · have hskipped := h _ hchild
        dsimp only at hskipped
        rw [if_neg (by simpa using hdep)] at hskipped
        rw [opens, hdirectory, Bool.true_and]
        refine ih (Path.text_child_ne_empty hname) hskipped ?_
        rwa [FileTree.destination_child tree hdir hname, destination_of_locateDirectory hopen]

end Paths

end SourceFiles

end CatalogAudit
