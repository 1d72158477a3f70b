/-
  CatalogAudit.Proofs.Command.FatalRun — what a removal leaves when it ends with an error.

  A removal ends with an error when the project cannot be read, for one of the four reasons
  there are (`ProjectError`), or when its log cannot be written. In the first case nothing has
  been written. The log is the last thing that is written, so in the second case the catalogs
  have been saved already, each file holds what is left of its catalog, and no other file has
  changed (`fatal_removal`). So a run that fails may change a catalog
  (`fatal_removal_may_change_catalog`).

  Several catalogs may have one file, where locales are spelled as paths. They were loaded with
  the same entries, so whichever is saved last leaves the same text (`contentAt?_of_saves`).
-/

import CatalogAudit.Proofs.Command.Confinement

namespace CatalogAudit.Command

variable {tree : FileTree} {o : Overrides}

/-- A run ends with an error of its own only when its log is not written; then no file has
changed at its end. -/
theorem finish_error {remarks : List String} {log : Log} {file : Path} {found : Bool}
    (h : (finish remarks log file tree (statusOf found)).status = .error) :
    ∃ e, (log.write tree file).2 = some e ∧
      ∀ l, (finish remarks log file tree (statusOf found)).tree.contentAt? l =
        tree.contentAt? l := by
  obtain ⟨made, hmade, -, hfailed⟩ := rewrites_logWrite log tree file
  rw [tree_finish]
  cases hwrite : (log.write tree file).2 with
  | none =>
    rw [status_finish, hwrite] at h
    cases found <;> cases h
  | some e =>
    refine ⟨e, rfl, fun l => ?_⟩
    rw [hfailed (by simp [hwrite]), hmade.contentAt?_eq]

/-! ## Catalogs that were saved -/

section

variable {usage : Usage} {dir : Path} {catalogs : List Catalog}

/-- Of catalogs that were loaded from one place the same entries are left. -/
theorem text_left_eq (hload : ∀ c ∈ catalogs, Catalog.load tree dir c.locale = .ok c)
    {c d : Catalog} (hc : c ∈ catalogs) (hd : d ∈ catalogs) {loc : Location}
    (hcloc : tree.locate c.file = .ok loc) (hdloc : tree.locate d.file = .ok loc) :
    ((Surplus.ofCatalogs usage catalogs).left c).text =
      ((Surplus.ofCatalogs usage catalogs).left d).text := by
  have hunique : ∀ e ∈ catalogs, ∀ e' ∈ catalogs, e'.locale = e.locale → e' = e := by
    intro e he e' he' hlocale
    have hsame := hload e' he'
    rw [hlocale, hload e he] at hsame
    exact (Except.ok.inj hsame).symm
  have hroot := Catalog.root_eq_of_load (hload c hc) (hload d hd) hcloc hdloc
  rw [Catalog.text, Catalog.text, Surplus.left, Surplus.left,
    Surplus.of?_ofCatalogs_of_unique usage hc (hunique c hc),
    Surplus.of?_ofCatalogs_of_unique usage hd (hunique d hd),
    Catalog.root_prunedBy_surplus hroot usage]

/-- A catalog that was loaded and is saved stands in its file at the end of the run. -/
theorem contentAt?_of_saves (hload : ∀ c ∈ catalogs, Catalog.load tree dir c.locale = .ok c)
    {c : Catalog} (hc : c ∈ catalogs)
    (hsaves : (Surplus.ofCatalogs usage catalogs).saves (fun _ => none) tree c = true) :
    ∃ l, tree.locate c.file = .ok l ∧
      ((Surplus.ofCatalogs usage catalogs).prune .remove tree catalogs).tree.contentAt? l =
        some ((Surplus.ofCatalogs usage catalogs).left c).text.toUTF8 := by
  obtain ⟨_, _, hfile, hnode, -⟩ := Catalog.exists_file_of_load (hload c hc)
  have hdevice := FileTree.hasDevice_of_file hfile hnode
  obtain ⟨i, hi⟩ := List.mem_iff_getElem?.1 hc
  obtain ⟨before, hbefore, hafter, -, -⟩ := Surplus.turn_pruneUnless (fun _ => none)
    (Surplus.ofCatalogs usage catalogs) tree hi
  rw [← Surplus.saves_eq hbefore] at hsaves
  rcases Surplus.handleUnless_cases (fun _ => none) (Surplus.ofCatalogs usage catalogs) before c
    with ⟨ht, -⟩ | ⟨saving, turn, ht, h, ⟨-, hok⟩ | ⟨e, -, herror, -⟩⟩
  · rw [Surplus.saves, ht] at hsaves
    cases hsaves
  · rw [h] at hafter
    obtain ⟨l, content, hloc, hw, -, hcontent⟩ :=
      Surplus.content?_of_saves hdevice hc hbefore ht hok hafter
    obtain ⟨d, hd, -, hdloc, rfl⟩ := hw
    exact ⟨l, hloc, by rw [text_left_eq hload hc hd hloc hdloc]; exact hcontent⟩
  · rw [Surplus.saves, herror] at hsaves
    simp [Except.isOk, Except.toBool] at hsaves

end

/-! ## Removals that fail -/

/-- A removal that ends with an error has read no project and changed nothing, or could not
write its log. Then every catalog that it saved stands in its file without its surplus, and no
other file has changed. -/
theorem fatal_removal (h : (clean tree o .remove).status = .error) :
    (∃ e, (Project.read tree o).outcome = .error e ∧ (clean tree o .remove).tree = tree) ∨
      ∃ p, (Project.read tree o).outcome = .ok p ∧
        let s := Surplus.ofCatalogs p.usage p.catalogs
        let r := s.prune .remove tree p.catalogs
        (∃ e, ((cleanLog p s r.removals .remove).write r.tree
          (p.logDir.child (cleanLogName .remove))).2 = some e) ∧
        r.removals.map (·.isSaved) = p.catalogs.map (s.saves (fun _ => none) tree) ∧
        (∀ c ∈ p.catalogs, s.saves (fun _ => none) tree c = true →
          ∃ l, tree.locate c.file = .ok l ∧
            (clean tree o .remove).tree.contentAt? l = some (s.left c).text.toUTF8) ∧
        ∀ l, (clean tree o .remove).tree.contentAt? l = tree.contentAt? l ∨
          ∃ c ∈ p.catalogs, s.saves (fun _ => none) tree c = true ∧
            tree.locate c.file = .ok l ∧
            (clean tree o .remove).tree.contentAt? l = some (s.left c).text.toUTF8 := by
  unfold clean at h ⊢
  rcases runOn_cases tree (Project.read tree o) (cleanProject tree .remove) with
    ⟨p, hp, hrun⟩ | ⟨e, he, -, hsame⟩
  · rw [hrun] at h ⊢
    unfold cleanProject at h ⊢
    dsimp only at h ⊢
    obtain ⟨e, he, hlast⟩ := finish_error h
    refine .inr ⟨p, hp, ⟨e, he⟩, Surplus.isSaved_pruneUnless _ _ _ _, ?_, fun l => ?_⟩
    · intro c hc hsaves
      obtain ⟨l, hloc, hcontent⟩ :=
        contentAt?_of_saves (fun _ hd => Project.load_of_read hp hd) hc hsaves
      exact ⟨l, hloc, by rw [hlast l, hcontent]⟩
    · have hprune := Surplus.rewrites_pruneUnless (fun _ => none)
        (Surplus.ofCatalogs p.usage p.catalogs) tree p.catalogs
      rw [hlast l]
      rcases hprune.contentAt?_cases l with hsame | ⟨content, hcontent, hw⟩
      · exact .inl hsame
      · obtain ⟨c, hc, hsaves, hloc, rfl⟩ := hw
        exact .inr ⟨c, hc, hsaves, hloc, hcontent⟩
  · exact .inl ⟨e, he, hsame⟩

/-- A project with surplus, where a file stands in the place of the log directory. -/
def blockedTree : FileTree := { staleTree with
  nodes := staleTree.nodes ++ [(["scripts"], .file "not a directory".toUTF8)] }

theorem fatal_removal_blocked :
    (clean blockedTree .none .remove).status = .error ∧
      ∃ p c, (Project.read blockedTree .none).outcome = .ok p ∧ c ∈ p.catalogs ∧
        blockedTree.locate c.file = .ok ["messages", "en.json"] ∧
        (clean blockedTree .none .remove).tree.contentAt? ["messages", "en.json"] =
          some ((Surplus.ofCatalogs p.usage p.catalogs).left c).text.toUTF8 := by
  have hstatus : (clean blockedTree .none .remove).status = .error := by decide +kernel
  refine ⟨hstatus, ?_⟩
  rcases fatal_removal hstatus with ⟨e, he, -⟩ | ⟨p, hp, -, -, -, hfiles⟩
  · have hread : (Project.read blockedTree .none).outcome.isOk = true := by decide +kernel
    rw [he] at hread
    cases hread
  · rcases hfiles ["messages", "en.json"] with hsame | ⟨c, hc, -, hloc, hcontent⟩
    · exact absurd hsame (by decide +kernel)
    · exact ⟨p, c, hp, hc, hloc, hcontent⟩

/-- The log cannot be written, but the catalog has been. -/
theorem fatal_removal_may_change_catalog :
    ¬ ∀ (tree : FileTree) (o : Overrides) (loaded : Config.Loaded) (locale : String)
      (l : Location), (clean tree o .remove).status = .error →
      Config.load tree o.root = .ok loaded →
      tree.locate (Catalog.fileOf (resolve o.root (o.apply loaded.config).messagesRoot) locale) =
        .ok l →
      (clean tree o .remove).tree.contentAt? l = tree.contentAt? l := by
  intro h
  have hsame := h blockedTree .none ⟨Config.default, false⟩ "en" ["messages", "en.json"]
    (by decide +kernel) rfl rfl
  exact absurd hsame (by decide +kernel)

end CatalogAudit.Command
