/-
  CatalogAudit.Proofs.Config.Search — where the config file of a project is looked for.

  The search goes from a directory to its parent and so on, up to the working directory or, for
  an absolute path, to the root (`IsWayUp`). It ends at the first directory that holds a config
  file or a `.git`; a directory with both counts as one with a config file (`IsNearest`).

  `nearest_config_is_found` says that the file of that directory is found and nothing else, and
  that nothing else in the tree has a part in it: an answer stays the same as long as the
  directories on the way up are directories and the first of them with either name, and those
  before it, have what they had under the two names (`LooksSame`).
-/

import CatalogAudit.Config.File
import CatalogAudit.Proofs.FileTree.Following

namespace CatalogAudit.Config

open FileTree CatalogAudit.Path

/-- The directories that are searched, in order. -/
def searched (start : Path) : List Path := start :: start.parents

/-- The names that end the search. -/
def marks : List String := [fileName, ".git"]

/-- Whether the search ends at a directory. -/
def HoldsMark (tree : FileTree) (dir : Path) : Prop :=
  ∃ mark ∈ marks, tree.has (dir.child mark) = true

instance (tree : FileTree) (dir : Path) : Decidable (HoldsMark tree dir) :=
  inferInstanceAs (Decidable (∃ _ ∈ marks, _))

/-- `dir` is the first to hold a config file, and none before it holds a `.git`. -/
def IsNearest (tree : FileTree) (dirs : List Path) (dir : Path) : Prop :=
  tree.has (dir.child fileName) = true ∧
    ∃ nearer farther, dirs = nearer ++ dir :: farther ∧ ∀ d ∈ nearer, ¬ HoldsMark tree d

variable {tree tree' : FileTree} {start dir : Path} {dirs : List Path}

theorem holdsMark_iff :
    HoldsMark tree dir ↔
      tree.has (dir.child fileName) = true ∨ tree.has (dir.child ".git") = true := by
  simp [HoldsMark, marks]

theorem isNearest_cons {d : Path} :
    IsNearest tree (d :: dirs) dir ↔
      (dir = d ∧ tree.has (d.child fileName) = true) ∨
        (¬ HoldsMark tree d ∧ IsNearest tree dirs dir) := by
  constructor
  · rintro ⟨hfile, nearer, farther, hdirs, hnearer⟩
    cases nearer with
    | nil =>
      obtain ⟨rfl, -⟩ := List.cons.inj hdirs
      exact .inl ⟨rfl, hfile⟩
    | cons first nearer =>
      obtain ⟨rfl, hrest⟩ := List.cons.inj hdirs
      obtain ⟨hfirst, hnearer⟩ := List.forall_mem_cons.1 hnearer
      exact .inr ⟨hfirst, hfile, nearer, farther, hrest, hnearer⟩
  · rintro (⟨rfl, hfile⟩ | ⟨hd, hfile, nearer, farther, rfl, hnearer⟩)
    · exact ⟨hfile, [], dirs, rfl, by simp⟩
    · exact ⟨hfile, d :: nearer, farther, rfl, List.forall_mem_cons.2 ⟨hd, hnearer⟩⟩

theorem findIn_eq_some_iff {file : Path} :
    findIn tree dirs = some file ↔
      ∃ dir, IsNearest tree dirs dir ∧ file = dir.child fileName := by
  induction dirs with
  | nil => simp [findIn, IsNearest]
  | cons d dirs ih =>
    rw [findIn]
    split
    · next hfile =>
      have hmark : HoldsMark tree d := holdsMark_iff.2 (.inl hfile)
      simp [isNearest_cons, hfile, hmark, eq_comm (a := file)]
    · next hfile =>
      split
      · next hgit =>
        have hmark : HoldsMark tree d := holdsMark_iff.2 (.inr hgit)
        simp [isNearest_cons, hfile, hmark]
      · next hgit =>
        have hmark : ¬ HoldsMark tree d := fun h => (holdsMark_iff.1 h).elim hfile hgit
        simp [isNearest_cons, hfile, hmark, ih]

/-! ## What the search looks at -/

/-- Two trees in which the search sees the same: the same directories on the way up, and the same
names that end the search as far as it goes. -/
structure LooksSame (tree tree' : FileTree) (start : Path) : Prop where
  workingDirectory : tree'.workingDirectory = tree.workingDirectory
  directories : ∀ dir ∈ searched start,
    tree'.node? (tree.destination dir) = some .directory ↔
      tree.node? (tree.destination dir) = some .directory
  marks : ∀ nearer dir farther, searched start = nearer ++ dir :: farther →
    (∀ d ∈ nearer, ¬ HoldsMark tree d) → ∀ mark ∈ marks,
      ((tree'.node? (tree.destination dir ++ [mark])).isSome ↔
        (tree.node? (tree.destination dir ++ [mark])).isSome)

theorem isName_of_mem_marks : ∀ mark ∈ marks, IsName mark := by decide

theorem findIn_congr
    (h : ∀ nearer dir farther, dirs = nearer ++ dir :: farther →
      (∀ d ∈ nearer, ¬ HoldsMark tree d) → ∀ mark ∈ marks,
        tree'.has (dir.child mark) = tree.has (dir.child mark)) :
    findIn tree' dirs = findIn tree dirs := by
  induction dirs with
  | nil => rfl
  | cons d dirs ih =>
    have hd := h [] d dirs rfl (by simp)
    rw [findIn, findIn, hd fileName (by simp [marks]), hd ".git" (by simp [marks])]
    split
    · rfl
    · next hfile =>
      split
      · rfl
      · next hgit =>
        refine ih fun nearer dir farther hdirs hnearer => ?_
        have hnone : ¬ HoldsMark tree d := by
          rw [holdsMark_iff]
          exact not_or.2 ⟨hfile, hgit⟩
        exact h (d :: nearer) dir farther (congrArg _ hdirs)
          (List.forall_mem_cons.2 ⟨hnone, hnearer⟩)

theorem LooksSame.has_eq (h : LooksSame tree tree' start) (hup : Component.up ∉ start.components)
    {nearer farther : List Path} (hdirs : searched start = nearer ++ dir :: farther)
    (hnearer : ∀ d ∈ nearer, ¬ HoldsMark tree d) {mark : String} (hmark : mark ∈ Config.marks) :
    tree'.has (dir.child mark) = tree.has (dir.child mark) := by
  have hn := isName_of_mem_marks mark hmark
  have hdir : dir ∈ searched start := by simp [hdirs]
  have hup' : Component.up ∉ dir.components := fun hm => hup ((prefix_components hdir).subset hm)
  have hstart : tree'.start (dir.child mark) = tree.start (dir.child mark) := by
    rw [FileTree.start, FileTree.start, h.workingDirectory]
  have hdestination : tree'.destination (dir.child mark) = tree.destination (dir.child mark) := by
    rw [destination, destination, hstart]
  have hpasses : tree'.Passes (tree.start (dir.child mark))
      (Text.split '/' (dir.child mark).text) ↔
        tree.Passes (tree.start (dir.child mark)) (Text.split '/' (dir.child mark).text) := by
    refine passes_congr fun before segment after hsplit => ?_
    obtain ⟨above, habove, hloc⟩ := exists_destination_eq tree hup' hn hsplit
    rw [hloc]
    exact h.directories above (mem_of_mem_parents hdir habove)
  have hentry := h.marks nearer dir farther hdirs hnearer mark hmark
  rw [Bool.eq_iff_iff, has_iff, has_iff, hstart, hdestination, hpasses,
    destination_child_of_isName tree hn, hentry]

/-- The config file of the nearest directory is found, and nothing else in the tree has a part
in it. -/
theorem nearest_config_is_found (tree : FileTree) (hup : Component.up ∉ start.components) :
    IsWayUp start (searched start) ∧
      (∀ dir ∈ searched start, tree.destination dir = tree.start start ++ dir.names) ∧
      (∀ file, find? tree start = some file ↔
        ∃ dir, IsNearest tree (searched start) dir ∧ file = dir.child fileName) ∧
      ∀ tree', LooksSame tree tree' start → find? tree' start = find? tree start := by
  refine ⟨isWayUp_parents start, fun dir hdir => ?_, fun file => findIn_eq_some_iff,
    fun tree' h => ?_⟩
  · have hup' : Component.up ∉ dir.components := fun hm => hup ((prefix_components hdir).subset hm)
    rw [destination_eq tree hup', start_eq_of_mem tree hdir]
  · exact findIn_congr fun nearer dir farther hdirs hnearer mark hmark =>
      h.has_eq hup hdirs hnearer hmark

/-- A project inside of another one; both have a config file, and the inner one a `.git` too. -/
def innerTree (outer : Assoc Location Node) : FileTree :=
  ⟨["site"], [(["site"], .directory), (["site", "web"], .directory),
    (["site", "web", ".git"], .directory),
    (["site", "web", ".transcheckrc.json"], .file .empty),
    (["site", "web", "app"], .directory)] ++ outer⟩

theorem searched_app : searched ⟨"./web/app"⟩ = [⟨"./web/app"⟩, ⟨"./web"⟩, ⟨"."⟩, ⟨""⟩] := by
  decide

theorem looksSame_innerTree :
    LooksSame (innerTree [(["site", ".transcheckrc.json"], .file .empty)]) (innerTree [])
      ⟨"./web/app"⟩ := by
  refine ⟨rfl, fun dir hdir => ?_, fun nearer dir farther hdirs hnearer => ?_⟩
  · simp only [searched_app, List.mem_cons, List.not_mem_nil, or_false] at hdir
    rcases hdir with rfl | rfl | rfl | rfl <;> exact iff_of_true rfl rfl
  · -- the search does not go on after the inner project
    rw [searched_app] at hdirs
    match nearer with
    | [] =>
      obtain ⟨rfl, -⟩ := List.cons.inj hdirs
      decide
    | [first] =>
      obtain ⟨rfl, hrest⟩ := List.cons.inj hdirs
      obtain ⟨rfl, -⟩ := List.cons.inj hrest
      decide
    | first :: second :: nearer =>
      obtain ⟨rfl, hrest⟩ := List.cons.inj hdirs
      obtain ⟨rfl, -⟩ := List.cons.inj hrest
      exact absurd (show HoldsMark _ _ by decide) (hnearer ⟨"./web"⟩ (by simp))

/-- The inner config file is found from below, whether the outer one is there or not. -/
theorem nearest_config_is_found_inner :
    Component.up ∉ (⟨"./web/app"⟩ : Path).components ∧
      find? (innerTree [(["site", ".transcheckrc.json"], .file .empty)]) ⟨"./web/app"⟩ =
        some ⟨"./web/.transcheckrc.json"⟩ ∧
      find? (innerTree []) ⟨"./web/app"⟩ = some ⟨"./web/.transcheckrc.json"⟩ := by
  have hup : Component.up ∉ (⟨"./web/app"⟩ : Path).components := by decide
  obtain ⟨-, -, hfind, hsame⟩ :=
    nearest_config_is_found (innerTree [(["site", ".transcheckrc.json"], .file .empty)]) hup
  have hinner := (hfind ⟨"./web/.transcheckrc.json"⟩).2
    ⟨⟨"./web"⟩, ⟨by decide, [⟨"./web/app"⟩], [⟨"."⟩, ⟨""⟩], searched_app, by decide⟩, by decide⟩
  exact ⟨hup, hinner, (hsame _ looksSame_innerTree).trans hinner⟩

end CatalogAudit.Config
