/-
  CatalogAudit.Proofs.Command.FailedInputs — inputs that fail have no influence on a run.

  A project may be read without some of its locales and source files (`Project.readWith`). When
  those that are left out cannot be loaded or read, only the lists of inputs and of failures are
  others (`Project.ofFiles_narrowed`). So the same is found and removed, and as a log can be
  written whatever it says (`isSome_logWrite`), the exit status is the same
  (`failed_inputs_have_no_influence`). The run with all inputs names each that fails, as often as
  it is listed (`Project.LeavesOutFailed`).
-/

import CatalogAudit.Proofs.Command.Confinement
import CatalogAudit.Proofs.Scan.FileOrder

namespace CatalogAudit

/-! ## Readings of a part of the inputs -/

namespace Project

/-- The locales of a project whose catalog can be loaded. -/
def loadable (tree : FileTree) (o : Overrides) (config : Config) : List String :=
  let messagesDir := resolve o.root config.messagesRoot
  (localesOf tree config messagesDir).filter (Catalog.isLoadable tree messagesDir)

/-- The settings without the locales whose catalog cannot be loaded. -/
def narrowed (tree : FileTree) (o : Overrides) (config : Config) : Config :=
  { config with locales := loadable tree o config }

/-- The source files without those that cannot be read. -/
def readable (tree : FileTree) (listed : SourceFiles.Listing) : SourceFiles.Listing :=
  { listed with files := listed.files.filter (Scan.isReadable tree) }

/-- The project without the inputs that fail. -/
def withoutFailed (tree : FileTree) (p : Project) : Project :=
  let locales := p.locales.filter (Catalog.isLoadable tree p.messagesDir)
  { p with
    config := { p.config with locales }
    locales
    files := p.files.filter (Scan.isReadable tree)
    unread := []
    failures := [] }

section
variable {tree : FileTree} {o : Overrides} {config : Config}

/-- Some catalog is loaded when some locale can be. -/
theorem isEmpty_catalogs (tree : FileTree) (o : Overrides) (config : Config) :
    let messagesDir := resolve o.root config.messagesRoot
    (Catalog.loadAll tree messagesDir (localesOf tree config messagesDir)).catalogs.isEmpty =
      (loadable tree o config).isEmpty := by
  rw [Bool.eq_iff_iff, List.isEmpty_iff, List.isEmpty_iff, loadable, List.filter_eq_nil_iff,
    Catalog.catalogs_loadAll_eq_nil_iff]
  simp only [Bool.not_eq_true]

/-- The settings name the locales that are left, if there are any. -/
theorem localesOf_narrowed (h : (loadable tree o config).isEmpty = false) (dir : Path) :
    localesOf tree (narrowed tree o config) dir = loadable tree o config := by
  rw [localesOf, narrowed, h]
  rfl

/-- A locale that can be loaded is enough for a project. -/
theorem ofFiles_isOk (h : (loadable tree o config).isEmpty = false)
    (listed : SourceFiles.Listing) : ∃ p, ofFiles tree o config listed = .ok p := by
  rw [← isEmpty_catalogs] at h
  simp [ofFiles, h]

/-- Without the inputs that fail nothing else of the project changes. -/
theorem ofFiles_narrowed {listed : SourceFiles.Listing} {p : Project}
    (h : ofFiles tree o config listed = .ok p) :
    ofFiles tree o (narrowed tree o config) (readable tree listed) =
      .ok (p.withoutFailed tree) := by
  have hempty := isEmpty_catalogs tree o config
  unfold ofFiles at h ⊢
  dsimp only at h hempty ⊢
  split at h
  · cases h
  · next hsome =>
    cases h
    rw [Bool.not_eq_true] at hsome
    -- the locales that are left give all the catalogs, so there are some again
    have hlocales := localesOf_narrowed (hempty ▸ hsome) (resolve o.root config.messagesRoot)
    have hloaded := Catalog.loadAll_filter tree (resolve o.root config.messagesRoot)
      (localesOf tree config (resolve o.root config.messagesRoot))
    have hroot : (narrowed tree o config).messagesRoot = config.messagesRoot := rfl
    have hrules : (narrowed tree o config).scanRules = config.scanRules := rfl
    rw [hroot, hlocales, loadable, hloaded, hsome, hrules, readable, Scan.scanFiles_filter]
    rfl

end

/-! ## What stays and what is named -/

/-- The same is found in two projects, and the same is removed from the files. -/
structure SameFindings (tree : FileTree) (p q : Project) : Prop where
  usage : q.usage = p.usage
  catalogs : q.catalogs = p.catalogs
  consistency :
    Consistency.ofCatalogs q.usage q.catalogs = Consistency.ofCatalogs p.usage p.catalogs
  surplus : Surplus.ofCatalogs q.usage q.catalogs = Surplus.ofCatalogs p.usage p.catalogs
  prune : ∀ mode,
    (Surplus.ofCatalogs q.usage q.catalogs).prune mode tree q.catalogs =
      (Surplus.ofCatalogs p.usage p.catalogs).prune mode tree p.catalogs

/-- The second project is left with the inputs that do not fail, and the first names all the
others in their order. -/
structure LeavesOutFailed (tree : FileTree) (p q : Project) : Prop where
  locales : q.locales = p.locales.filter (Catalog.isLoadable tree p.messagesDir)
  files : q.files = p.files.filter (Scan.isReadable tree)
  failures : p.failures.map (·.locale) =
    p.locales.filter (!Catalog.isLoadable tree p.messagesDir ·)
  unread : p.unread.map (·.file) = p.files.filter (!Scan.isReadable tree ·)
  noFailures : q.failures = []
  noUnread : q.unread = []

theorem sameFindings_withoutFailed (tree : FileTree) (p : Project) :
    SameFindings tree p (p.withoutFailed tree) := ⟨rfl, rfl, rfl, rfl, fun _ => rfl⟩

theorem leavesOutFailed_withoutFailed {tree : FileTree} {o : Overrides} {config : Config}
    {listed : SourceFiles.Listing} {p : Project} (h : ofFiles tree o config listed = .ok p) :
    LeavesOutFailed tree p (p.withoutFailed tree) := by
  unfold ofFiles at h
  dsimp only at h
  split at h
  · cases h
  · cases h
    exact ⟨rfl, rfl, Catalog.map_locale_failures tree _ _,
      (Scan.answers_scanFiles config.scanRules tree listed.files).errors, rfl, rfl⟩

/-! ## Readings -/

/-- Whether a locale of the project has a catalog that can be loaded. -/
def HasCatalog (tree : FileTree) (o : Overrides) : Prop :=
  ∃ loaded, Config.load tree o.root = .ok loaded ∧
    (loadable tree o (o.apply loaded.config)).isEmpty = false

/-- The project as it is read without the inputs that fail. -/
def readWithoutFailed (tree : FileTree) (o : Overrides) : Reading :=
  readWith tree o (narrowed tree o) (readable tree)

/-- Where there is a locale, a reading fails with its sources or goes on with them. -/
theorem outcome_ofListing {tree : FileTree} {o : Overrides} {config : Config}
    (h : (localesOf tree config (resolve o.root config.messagesRoot)).isEmpty = false)
    (note : List String) (listed : Except SourceFiles.UnreadRoot SourceFiles.Listing) :
    (ofListing tree o note config listed).outcome =
      listed.mapError .sourceRoot >>= ofFiles tree o config := by
  unfold ofListing
  dsimp only
  rw [h]
  cases listed <;> rfl

theorem outcome_ofListing_narrowed {tree : FileTree} {o : Overrides} {config : Config}
    (h : (loadable tree o config).isEmpty = false) (note : List String)
    (listed : Except SourceFiles.UnreadRoot SourceFiles.Listing) :
    (∃ p, (ofListing tree o note config listed).outcome = .ok p ∧
        (ofListing tree o note (narrowed tree o config) (listed.map (readable tree))).outcome =
          .ok (p.withoutFailed tree) ∧
        LeavesOutFailed tree p (p.withoutFailed tree)) ∨
      ∃ e, (ofListing tree o note config listed).outcome = .error (.sourceRoot e) ∧
        (ofListing tree o note (narrowed tree o config) (listed.map (readable tree))).outcome =
          .error (.sourceRoot e) := by
  have hlocales : (localesOf tree config (resolve o.root config.messagesRoot)).isEmpty = false := by
    cases hnone : localesOf tree config (resolve o.root config.messagesRoot) with
    | nil => simp [loadable, hnone] at h
    | cons locale locales => rfl
  have hnarrowed : (localesOf tree (narrowed tree o config)
      (resolve o.root (narrowed tree o config).messagesRoot)).isEmpty = false := by
    rw [localesOf_narrowed h]
    exact h
  rw [outcome_ofListing hlocales, outcome_ofListing hnarrowed]
  cases listed with
  | error e => exact .inr ⟨e, rfl, rfl⟩
  | ok listed =>
    obtain ⟨p, hp⟩ := ofFiles_isOk h listed
    exact .inl ⟨p, hp, ofFiles_narrowed hp, leavesOutFailed_withoutFailed hp⟩

/-- A project with a catalog is read, with the inputs that fail and without them, unless its
sources cannot be listed. -/
theorem read_cases {tree : FileTree} {o : Overrides} (h : HasCatalog tree o) :
    (∃ p, (read tree o).outcome = .ok p ∧
        (readWithoutFailed tree o).outcome = .ok (p.withoutFailed tree) ∧
        LeavesOutFailed tree p (p.withoutFailed tree)) ∨
      ∃ e, (read tree o).outcome = .error (.sourceRoot e) ∧
        (readWithoutFailed tree o).outcome = .error (.sourceRoot e) := by
  obtain ⟨loaded, hload, hsome⟩ := h
  have hcases := outcome_ofListing_narrowed hsome
    (if o.verbose && !loaded.fromFile then [defaultsNote] else [])
    (listing tree o (o.apply loaded.config))
  have hall : (listing tree o (o.apply loaded.config)).map id =
      listing tree o (o.apply loaded.config) := by
    cases listing tree o (o.apply loaded.config) <;> rfl
  unfold readWithoutFailed read readWith
  rw [hload]
  dsimp only [id]
  rw [hall]
  exact hcases

end Project

/-! ## Runs -/

namespace Command

/-- A log is not written when its directory cannot be made or its file not be written. -/
theorem isSome_logWrite_eq (log : Log) (tree : FileTree) (file : Path) :
    (log.write tree file).2.isSome =
      ((Log.makeParent tree file).2.isSome ||
        !((Log.makeParent tree file).1.writeText file log.fileText).isOk) := by
  unfold Log.write
  rcases Log.makeParent tree file with ⟨made, _ | e⟩
  · dsimp only
    cases made.writeText file log.fileText <;> rfl
  · rfl

/-- Whether a log can be written does not depend on what it says. -/
theorem isSome_logWrite (log other : Log) (tree : FileTree) (file : Path) :
    (log.write tree file).2.isSome = (other.write tree file).2.isSome := by
  have hwrites (made : FileTree) : (made.writeText file log.fileText).isOk =
      (made.writeText file other.fileText).isOk := by
    rw [Bool.eq_iff_iff, FileTree.writeText, FileTree.writeText, FileTree.isOk_write_iff,
      FileTree.isOk_write_iff]
  rw [isSome_logWrite_eq, isSome_logWrite_eq, hwrites]

section
variable (tree : FileTree) (p : Project) (remarks others : List String)

theorem status_checkProject :
    (checkProject tree others (p.withoutFailed tree)).status =
      (checkProject tree remarks p).status := by
  rw [checkProject, checkProject, status_finish, status_finish,
    isSome_logWrite _ (checkLog p (Consistency.ofCatalogs p.usage p.catalogs))]
  rfl

theorem status_cleanProject (mode : Mode) :
    (cleanProject tree mode others (p.withoutFailed tree)).status =
      (cleanProject tree mode remarks p).status := by
  rw [cleanProject, cleanProject, status_finish, status_finish, isSome_logWrite _
    (cleanLog p (Surplus.ofCatalogs p.usage p.catalogs)
      ((Surplus.ofCatalogs p.usage p.catalogs).prune mode tree p.catalogs).removals mode)]
  rfl

end

/-- Inputs that fail have no influence. Where some locale can be loaded, a run on the project
without the locales and source files that fail ends as the run with them does, and the same is
found and removed. Only the run with them names them, each as often as it is listed. -/
theorem failed_inputs_have_no_influence {tree : FileTree} {o : Overrides}
    (h : Project.HasCatalog tree o) :
    let kept := Project.readWithoutFailed tree o
    (runOn tree kept (checkProject tree)).status = (check tree o).status ∧
      (∀ mode, (runOn tree kept (cleanProject tree mode)).status = (clean tree o mode).status) ∧
      ((∃ p q, (Project.read tree o).outcome = .ok p ∧ kept.outcome = .ok q ∧
          Project.SameFindings tree p q ∧ Project.LeavesOutFailed tree p q) ∨
        ∃ e, (Project.read tree o).outcome = .error (.sourceRoot e) ∧
          kept.outcome = .error (.sourceRoot e)) := by
  dsimp only
  rcases Project.read_cases h with ⟨p, hp, hkept, hnamed⟩ | ⟨e, he, hkept⟩
  · have hsame := Project.sameFindings_withoutFailed tree p
    refine ⟨?_, fun mode => ?_, .inl ⟨p, _, hp, hkept, hsame, hnamed⟩⟩
    · rw [check, runOn, runOn, hp, hkept]
      exact status_checkProject tree p _ _
    · rw [clean, runOn, runOn, hp, hkept]
      exact status_cleanProject tree p _ _ mode
  · refine ⟨?_, fun mode => ?_, .inr ⟨e, he, hkept⟩⟩
    · rw [check, runOn, runOn, he, hkept]
    · rw [clean, runOn, runOn, he, hkept]

/-- A project with a catalog that is cut off and a source that is no text. -/
def damagedTree : FileTree :=
  ⟨[], [(["messages"], .directory),
    (["messages", "en.json"], .file "\x7b\"home\": \"Home\"\x7d".toUTF8),
    (["messages", "zh.json"], .file "\x7b\"home\": ".toUTF8),
    (["src"], .directory), (["src", "a.ts"], .file ⟨#[0xff]⟩)]⟩

theorem failed_inputs_have_no_influence_damaged :
    Project.HasCatalog damagedTree .none ∧
      ∃ p q, (Project.read damagedTree .none).outcome = .ok p ∧
        (Project.readWithoutFailed damagedTree .none).outcome = .ok q ∧
        Project.SameFindings damagedTree p q ∧ Project.LeavesOutFailed damagedTree p q ∧
        p.failures.map (·.locale) = ["zh"] ∧ p.unread.map (·.file.text) = ["./src/a.ts"] := by
  have hcatalog : Project.HasCatalog damagedTree .none :=
    ⟨⟨Config.default, false⟩, rfl, by decide +kernel⟩
  refine ⟨hcatalog, ?_⟩
  have hfailed : ((Project.read damagedTree .none).outcome.map fun p =>
      (p.failures.map (·.locale), p.unread.map (·.file.text))).toOption =
      some (["zh"], ["./src/a.ts"]) := by
    decide +kernel
  obtain ⟨-, -, ⟨p, q, hp, hq, hsame, hnamed⟩ | ⟨e, he, -⟩⟩ :=
    failed_inputs_have_no_influence hcatalog
  · rw [hp] at hfailed
    have hfailures := Prod.ext_iff.1 (Option.some.inj hfailed)
    exact ⟨p, q, hp, hq, hsame, hnamed, hfailures.1, hfailures.2⟩
  · rw [he] at hfailed
    cases hfailed

end Command

end CatalogAudit
