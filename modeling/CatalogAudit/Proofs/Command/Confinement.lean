/-
  CatalogAudit.Proofs.Command.Confinement — which files a command writes.

  A run ends with its log. Directories are made for it, and then no file but the log has
  another content than before (`contentAt?_finish`). Before that only `clean` writes, and only
  when it removes: the files of catalogs that were loaded and have a surplus
  (`Surplus.rewrites_prune`). A run that cannot read the project writes nothing at all. So whatever
  the files, the options and the outcome, a file whose content changes is one of these
  (`writes_are_confined`).

  A log and an input never have the same name: a log ends in `g`, a catalog and a config file
  in `n`, a source file in the last letter of a script extension (`Input`). So `check` and a
  trial run leave every input as it is.
-/

import CatalogAudit.Command
import CatalogAudit.Proofs.Catalog.Loading
import CatalogAudit.Proofs.FileTree.FileName
import CatalogAudit.Proofs.SourceFiles.Names
import CatalogAudit.Proofs.Surplus.Saving

namespace CatalogAudit

/-! ## The end of a run -/

namespace Command

/-- Directories are made, and then the log is written or not. -/
theorem rewrites_logWrite (log : Log) (tree : FileTree) (file : Path) :
    ∃ made, tree.AddsDirectories made ∧
      made.Rewrites (fun loc _ => made.locate file = .ok loc) (log.write tree file).1 ∧
      ((log.write tree file).2 ≠ none → (log.write tree file).1 = made) := by
  have hmade := FileTree.addsDirectories_makeParent tree file
  unfold Log.write
  cases h : Log.makeParent tree file with
  | mk made error? =>
    rw [h] at hmade
    refine ⟨made, hmade, ?_⟩
    cases error? with
    | some e => exact ⟨.refl _ made, fun _ => rfl⟩
    | none =>
      dsimp only
      cases hwrite : made.writeText file log.fileText with
      | error e => exact ⟨.refl _ made, fun _ => rfl⟩
      | ok written =>
        obtain ⟨loc, hloc, hrewrites, -⟩ := FileTree.node?_write hwrite
        exact ⟨hrewrites.mono fun _ _ hw => hw.1 ▸ hloc, fun hne => absurd rfl hne⟩

theorem tree_finish (remarks : List String) (log : Log) (file : Path) (tree : FileTree)
    (status : ExitStatus) :
    (finish remarks log file tree status).tree = (log.write tree file).1 := by
  unfold finish
  rcases log.write tree file with ⟨written, _ | e⟩ <;> rfl

/-- A run fails at its end when its log cannot be written. -/
theorem status_finish (remarks : List String) (log : Log) (file : Path) (tree : FileTree)
    (status : ExitStatus) :
    (finish remarks log file tree status).status =
      if (log.write tree file).2.isSome then .error else status := by
  unfold finish
  rcases log.write tree file with ⟨written, _ | e⟩ <;> rfl

/-- Only the log changes when a run ends. -/
theorem contentAt?_finish (remarks : List String) (log : Log) (file : Path) (tree : FileTree)
    (status : ExitStatus) (l : Location) :
    (finish remarks log file tree status).tree.contentAt? l = tree.contentAt? l ∨
      (finish remarks log file tree status).tree.locate file = .ok l := by
  obtain ⟨made, hmade, hrewrites, -⟩ := rewrites_logWrite log tree file
  rw [tree_finish, hrewrites.locate_iff, ← hmade.contentAt?_eq]
  by_cases hl : made.locate file = .ok l
  · exact .inr hl
  · exact .inl (hrewrites.contentAt?_eq fun _ => hl)

end Command

/-! ## Projects -/

/-- A project that was read has its settings and source files, and some catalog. -/
theorem Project.ofFiles_of_read {tree : FileTree} {o : Overrides} {p : Project}
    (h : (read tree o).outcome = .ok p) :
    ∃ config listed, ofFiles tree o config listed = .ok p := by
  unfold read readWith at h
  split at h
  · cases h
  unfold ofListing at h
  dsimp only at h
  split at h
  · cases h
  split at h
  · cases h
  · exact ⟨_, _, h⟩

/-- Every catalog of a project was loaded from its directory. -/
theorem Project.load_of_read {tree : FileTree} {o : Overrides} {p : Project}
    (h : (read tree o).outcome = .ok p) {c : Catalog} (hc : c ∈ p.catalogs) :
    Catalog.load tree p.messagesDir c.locale = .ok c := by
  obtain ⟨config, listed, hfiles⟩ := ofFiles_of_read h
  unfold ofFiles at hfiles
  dsimp only at hfiles
  split at hfiles
  · cases hfiles
  · cases hfiles
    exact Catalog.mem_loadAll hc

/-! ## Inputs -/

/-- The paths of files that a run may read. -/
inductive Input : Path → Prop
  | catalog (dir : Path) (locale : String) : Input (Catalog.fileOf dir locale)
  | config (dir : Path) : Input (dir.child Config.fileName)
  | source {file : Path} : SourceFiles.isSource file = true → Input file

namespace Path

/-- A child whose name ends so has a file name that ends in the same letter. -/
theorem getLast?_child (dir : Path) {name : String} {before ending : List Char}
    (hname : name.toList = before ++ ending) (hsep : '/' ∉ ending)
    (hdot : ∃ c ∈ ending, c ≠ '.') :
    ∃ file, (dir.child name).fileName? = some file ∧
      file.toList.getLast? = ending.getLast? := by
  obtain ⟨front, htext⟩ := exists_text_child dir name
  rw [hname, ← List.append_assoc] at htext
  obtain ⟨last, hfile⟩ := fileName?_of_suffix htext hsep hdot
  obtain ⟨c, hc, -⟩ := hdot
  refine ⟨_, hfile, ?_⟩
  rw [String.toList_ofList, List.getLast?_append]
  cases hlast : ending.getLast? with
  | none =>
    rw [List.getLast?_eq_none_iff] at hlast
    simp [hlast] at hc
  | some d => rfl

end Path

theorem Input.exists_fileName {file : Path} (h : Input file) :
    ∃ name, file.fileName? = some name ∧ name.toList.getLast? ≠ some 'g' := by
  cases h with
  | catalog dir locale =>
    have hname : (locale ++ ".json").toList = locale.toList ++ ".json".toList :=
      String.toList_append
    obtain ⟨name, hfile, hlast⟩ := Path.getLast?_child dir hname (by decide)
      ⟨'j', by decide, by decide⟩
    exact ⟨name, hfile, by rw [hlast]; decide⟩
  | config dir =>
    obtain ⟨name, hfile, hlast⟩ := Path.getLast?_child dir (List.nil_append _).symm
      (by decide : '/' ∉ Config.fileName.toList) ⟨'j', by decide, by decide⟩
    exact ⟨name, hfile, by rw [hlast]; decide⟩
  | source hsource =>
    obtain ⟨name, hfile, -⟩ := (Option.any_eq_true _ _).1 hsource
    obtain ⟨⟨stem, ext, hmem, hname, -⟩, -⟩ := (SourceFiles.isSource_iff hfile).1 hsource
    have hletter : ∀ ext ∈ SourceFiles.extensions, ext.toList ≠ [] ∧
        ext.toList.getLast? ≠ some 'g' := by decide
    obtain ⟨hne, hlast⟩ := hletter ext hmem
    refine ⟨name, hfile, ?_⟩
    rw [hname, String.toList_append, List.getLast?_append, List.getLast?_eq_some_getLast hne,
      Option.some_or, ← List.getLast?_eq_some_getLast hne]
    exact hlast

/-- An input does not stand where a log does. -/
theorem Input.ne_log {file : Path} (h : Input file) {tree : FileTree} {l : Location}
    (hfile : tree.locate file = .ok l) (dir : Path) {name : String} {before : List Char}
    (hname : name.toList = before ++ ".log".toList) : tree.locate (dir.child name) ≠ .ok l := by
  intro hlog
  obtain ⟨own, hown, hletter⟩ := h.exists_fileName
  obtain ⟨last, hlast, hg⟩ := Path.getLast?_child dir hname (by decide) ⟨'l', by decide, by decide⟩
  have hsame := FileTree.getLast?_of_locate hfile hown
  rw [FileTree.getLast?_of_locate hlog hlast] at hsame
  cases hsame
  exact hletter hg

/-! ## Commands -/

namespace Command

/-- A run that cannot read the project changes nothing. -/
theorem runOn_cases (tree : FileTree) (reading : Project.Reading)
    (run : List String → Project → RunResult) :
    (∃ p, reading.outcome = .ok p ∧ runOn tree reading run = run reading.remarks p) ∨
      ∃ e, reading.outcome = .error e ∧ (runOn tree reading run).status = .error ∧
        (runOn tree reading run).tree = tree := by
  unfold runOn
  cases reading.outcome with
  | ok p => exact .inl ⟨p, rfl, rfl⟩
  | error e => exact .inr ⟨e, rfl, rfl, rfl⟩

theorem check_changes {tree : FileTree} {o : Overrides} {l : Location}
    (h : (check tree o).tree.contentAt? l ≠ tree.contentAt? l) :
    ∃ p, (Project.read tree o).outcome = .ok p ∧
      (check tree o).tree.locate (p.logDir.child "check.log") = .ok l := by
  unfold check at h ⊢
  rcases runOn_cases tree (Project.read tree o) (checkProject tree) with
    ⟨p, hp, hrun⟩ | ⟨e, -, -, hsame⟩
  · rw [hrun] at h ⊢
    exact ⟨p, hp, (contentAt?_finish _ _ _ _ _ l).resolve_left h⟩
  · exact absurd (by rw [hsame]) h

theorem clean_changes {tree : FileTree} {o : Overrides} {mode : Mode} {l : Location}
    (h : (clean tree o mode).tree.contentAt? l ≠ tree.contentAt? l) :
    ∃ p, (Project.read tree o).outcome = .ok p ∧
      ((clean tree o mode).tree.locate (p.logDir.child (cleanLogName mode)) = .ok l ∨
        mode = .remove ∧ ∃ c ∈ p.catalogs, c.file = Catalog.fileOf p.messagesDir c.locale ∧
          (Surplus.ofCatalogs p.usage p.catalogs).touches c = true ∧
          tree.locate c.file = .ok l) := by
  unfold clean at h ⊢
  rcases runOn_cases tree (Project.read tree o) (cleanProject tree mode) with
    ⟨p, hp, hrun⟩ | ⟨e, -, -, hsame⟩
  · rw [hrun] at h ⊢
    unfold cleanProject at h ⊢
    dsimp only at h ⊢
    refine ⟨p, hp, ?_⟩
    rcases contentAt?_finish _ _ _ _ _ l with hsame | hlog
    · have hprune := Surplus.rewrites_prune (Surplus.ofCatalogs p.usage p.catalogs) mode tree
        p.catalogs
      rw [hsame] at h
      refine .inr (Classical.byContradiction fun hne => h (hprune.contentAt?_eq ?_))
      rintro - ⟨hmode, c, hc, ht, hloc⟩
      obtain ⟨-, -, -, -, hfile⟩ := Catalog.load_eq_ok.1 (Project.load_of_read hp hc)
      exact hne ⟨hmode, c, hc, hfile, ht, hloc⟩
    · exact .inl hlog
  · exact absurd (by rw [hsame]) h

/-- Whatever a project is like and however a run ends, a file that is new or has other content
than before is the command's own log or, when surplus is removed, the file of a catalog that was
loaded and has some. So without a removal no catalog, config or source file changes. -/
theorem writes_are_confined (tree : FileTree) (o : Overrides) :
    (∀ l, (check tree o).tree.contentAt? l ≠ tree.contentAt? l →
      ∃ p, (Project.read tree o).outcome = .ok p ∧
        (check tree o).tree.locate (p.logDir.child "check.log") = .ok l) ∧
      (∀ mode l, (clean tree o mode).tree.contentAt? l ≠ tree.contentAt? l →
        ∃ p, (Project.read tree o).outcome = .ok p ∧
          ((clean tree o mode).tree.locate (p.logDir.child (cleanLogName mode)) = .ok l ∨
            mode = .remove ∧ ∃ c ∈ p.catalogs, c.file = Catalog.fileOf p.messagesDir c.locale ∧
              (Surplus.ofCatalogs p.usage p.catalogs).touches c = true ∧
              tree.locate c.file = .ok l)) ∧
      ∀ file l, Input file →
        ((check tree o).tree.locate file = .ok l →
          (check tree o).tree.contentAt? l = tree.contentAt? l) ∧
        ((clean tree o .trial).tree.locate file = .ok l →
          (clean tree o .trial).tree.contentAt? l = tree.contentAt? l) := by
  refine ⟨fun _ => check_changes, fun _ _ => clean_changes, fun file l hfile => ⟨?_, ?_⟩⟩
  · intro hl
    refine Classical.byContradiction fun hne => ?_
    obtain ⟨p, -, hlog⟩ := check_changes hne
    have hname : "check.log".toList = "check".toList ++ ".log".toList := by decide
    exact hfile.ne_log hl _ hname hlog
  · intro hl
    refine Classical.byContradiction fun hne => ?_
    obtain ⟨p, -, hlog | ⟨hmode, -⟩⟩ := clean_changes hne
    · have hname : (cleanLogName .trial).toList = "clean".toList ++ ".log".toList := by decide
      exact hfile.ne_log hl _ hname hlog
    · cases hmode

/-- A project whose only entry no source uses. -/
def staleTree : FileTree :=
  ⟨[], [(["messages"], .directory),
    (["messages", "en.json"], .file "\x7b\"home\": \"Home\"\x7d".toUTF8), (["src"], .directory)]⟩

/-- The removal changes the catalog, as it has a surplus; a check leaves it alone. -/
theorem writes_are_confined_stale :
    (clean staleTree .none .remove).tree.contentAt? ["messages", "en.json"] ≠
        staleTree.contentAt? ["messages", "en.json"] ∧
      (∃ p, (Project.read staleTree .none).outcome = .ok p ∧
        ((clean staleTree .none .remove).tree.locate (p.logDir.child (cleanLogName .remove)) =
            .ok ["messages", "en.json"] ∨
          Mode.remove = .remove ∧ ∃ c ∈ p.catalogs,
            c.file = Catalog.fileOf p.messagesDir c.locale ∧
            (Surplus.ofCatalogs p.usage p.catalogs).touches c = true ∧
            staleTree.locate c.file = .ok ["messages", "en.json"])) ∧
      (check staleTree .none).tree.contentAt? ["messages", "en.json"] =
        staleTree.contentAt? ["messages", "en.json"] := by
  obtain ⟨-, hclean, hinput⟩ := writes_are_confined staleTree .none
  have hchanged : (clean staleTree .none .remove).tree.contentAt? ["messages", "en.json"] ≠
      staleTree.contentAt? ["messages", "en.json"] := by decide +kernel
  have hcatalog := hinput (Catalog.fileOf ⟨"messages"⟩ "en") ["messages", "en.json"] (.catalog _ _)
  exact ⟨hchanged, hclean .remove _ hchanged, hcatalog.1 rfl⟩

end Command

end CatalogAudit
