/-
  CatalogAudit.Proofs.Surplus.Saving — which files a run over all catalogs writes.

  Each catalog has its turn in a tree that differs from the first one only in files that turns
  before it wrote, and no later turn does more than that (`turn_pruneUnless`). So whether a
  catalog is saved depends on its own file alone (`isSaved_pruneUnless`), and where it has that
  file for itself no other turn writes it (`Writes.own`). Where files are shared the last turn
  that wrote one decides (`content?_of_saves`).
-/

import CatalogAudit.Proofs.FileTree.Writing
import CatalogAudit.Proofs.Surplus.Pruning

namespace CatalogAudit

/-! ## What a turn writes -/

namespace Surplus

/-- Whether there is something to remove from a catalog. -/
def touches (s : Surplus) (c : Catalog) : Bool := ((s.of? c.locale).filter (!·.isEmpty)).isSome

variable (refused : Path → Option FileError) (s : Surplus)

/-- Whether a catalog's turn writes its file. -/
def saves (tree : FileTree) (c : Catalog) : Bool :=
  s.touches c && ((s.left c).saveUnless refused tree).isOk

/-- Whether a run may leave that content at that location: that of a catalog that it saves. -/
def Writes (tree : FileTree) (catalogs : List Catalog) (loc : Location) (content : ByteArray) :
    Prop :=
  ∃ c ∈ catalogs, s.saves refused tree c = true ∧ tree.locate c.file = .ok loc ∧
    content = (s.left c).text.toUTF8

end Surplus

namespace Catalog

variable {refused : Path → Option FileError} {c : Catalog} {tree tree' : FileTree}

theorem saveUnless_eq_ok :
    c.saveUnless refused tree = .ok tree' ↔
      refused c.file = none ∧ tree.write c.file c.text.toUTF8 = .ok tree' := by
  unfold saveUnless save FileTree.writeText
  cases refused c.file with
  | none => simp [mapError_eq_ok]
  | some e => simp

/-- Whether a catalog can be saved does not depend on what other files hold. -/
theorem isOk_saveUnless {written : Location → ByteArray → Prop} (h : tree.Rewrites written tree') :
    (c.saveUnless refused tree').isOk = (c.saveUnless refused tree).isOk := by
  have hwrite := h.isOk_write c.file c.text.toUTF8
  unfold saveUnless save FileTree.writeText
  cases refused c.file with
  | some e => rfl
  | none =>
    revert hwrite
    cases tree'.write c.file c.text.toUTF8 <;> cases tree.write c.file c.text.toUTF8 <;>
      exact id

end Catalog

namespace Surplus

variable {refused : Path → Option FileError} {s : Surplus} {tree tree' : FileTree}
  {catalogs : List Catalog}

theorem saves_eq {written : Location → ByteArray → Prop} (h : tree.Rewrites written tree')
    (c : Catalog) : s.saves refused tree' c = s.saves refused tree c := by
  rw [saves, saves, Catalog.isOk_saveUnless h]

/-- What later turns write, seen from the tree before. -/
theorem Writes.later {written : Location → ByteArray → Prop} (h : tree.Rewrites written tree')
    {loc : Location} {content : ByteArray} (hw : s.Writes refused tree' catalogs loc content)
    (c : Catalog) : s.Writes refused tree (c :: catalogs) loc content := by
  obtain ⟨d, hd, hsaves, hloc, hcontent⟩ := hw
  exact ⟨d, List.mem_cons_of_mem c hd, saves_eq h d ▸ hsaves, h.locate_iff.1 hloc, hcontent⟩

theorem handleUnless_cases (refused : Path → Option FileError) (s : Surplus) (tree : FileTree)
    (c : Catalog) :
    s.touches c = false ∧
        c.handleUnless refused (s.of? c.locale) .remove tree = (tree, c, .none c.locale) ∨
      ∃ saving tree',
        s.touches c = true ∧
        c.handleUnless refused (s.of? c.locale) .remove tree = (tree', s.left c,
          ⟨c.locale, (c.prunedBy (s.of? c.locale)).keys,
            (c.prunedBy (s.of? c.locale)).namespaces, saving⟩) ∧
        (saving = .saved ∧ (s.left c).saveUnless refused tree = .ok tree' ∨
          ∃ e, saving = .failed e ∧ (s.left c).saveUnless refused tree = .error e ∧
            tree' = tree) := by
  simp only [touches, left, Catalog.handleUnless, Catalog.prunedBy]
  cases hentry : (s.of? c.locale).filter (!·.isEmpty) with
  | none => exact .inl ⟨rfl, rfl⟩
  | some entry =>
    dsimp only
    cases hsave : (c.prune entry).catalog.saveUnless refused tree with
    | ok tree' => exact .inr ⟨.saved, tree', rfl, rfl, .inl ⟨rfl, rfl⟩⟩
    | error e => exact .inr ⟨.failed e, tree, rfl, rfl, .inr ⟨e, rfl, rfl, rfl⟩⟩

theorem rewrites_handleUnless (refused : Path → Option FileError) (s : Surplus) (tree : FileTree)
    {c : Catalog} (hc : c ∈ catalogs) :
    tree.Rewrites (s.Writes refused tree catalogs)
      (c.handleUnless refused (s.of? c.locale) .remove tree).1 := by
  rcases handleUnless_cases refused s tree c with ⟨-, h⟩ | ⟨saving, tree', ht, h, hsave⟩
  · rw [h]
    exact .refl _ tree
  · rw [h]
    rcases hsave with ⟨-, hok⟩ | ⟨e, -, -, rfl⟩
    · obtain ⟨-, hwrite⟩ := Catalog.saveUnless_eq_ok.1 hok
      obtain ⟨loc, hloc, hrewrites, -⟩ := FileTree.node?_write hwrite
      have hsaves : s.saves refused tree c = true := by
        rw [saves, ht, hok]
        rfl
      refine hrewrites.mono fun l content ⟨hl, hcontent⟩ => ?_
      rw [file_left] at hloc
      exact ⟨c, hc, hsaves, hl ▸ hloc, hcontent⟩
    · exact .refl _ _

theorem rewrites_pruneUnless (refused : Path → Option FileError) (s : Surplus) (tree : FileTree)
    (catalogs : List Catalog) :
    tree.Rewrites (s.Writes refused tree catalogs)
      (s.pruneUnless refused .remove tree catalogs).tree := by
  induction catalogs generalizing tree with
  | nil => exact .refl _ tree
  | cons c catalogs ih =>
    have hmem : c ∈ c :: catalogs := List.mem_cons_self
    have hfirst := rewrites_handleUnless refused s tree hmem
    exact hfirst.trans ((ih _).mono fun _ _ hw => hw.later hfirst c)

/-- Each catalog has its turn in a tree that differs from the first one only in files that the
run writes, and what comes after it writes no other files either. -/
theorem turn_pruneUnless (refused : Path → Option FileError) (s : Surplus) (tree : FileTree)
    {i : Nat} {c : Catalog} (hc : catalogs[i]? = some c) :
    let result := s.pruneUnless refused .remove tree catalogs
    ∃ before, tree.Rewrites (s.Writes refused tree catalogs) before ∧
      let turn := c.handleUnless refused (s.of? c.locale) .remove before
      turn.1.Rewrites (s.Writes refused tree catalogs) result.tree ∧
        result.catalogs[i]? = some turn.2.1 ∧ result.removals[i]? = some turn.2.2 := by
  induction catalogs generalizing tree i with
  | nil => cases hc
  | cons d catalogs ih =>
    have hmem : d ∈ d :: catalogs := List.mem_cons_self
    have hfirst := rewrites_handleUnless refused s tree hmem
    cases i with
    | zero =>
      cases hc
      refine ⟨tree, .refl _ tree, ?_, rfl, rfl⟩
      exact (rewrites_pruneUnless refused s _ catalogs).mono fun _ _ hw => hw.later hfirst _
    | succ i =>
      obtain ⟨before, hbefore, hafter, hcatalog, hremoval⟩ := ih _ hc
      refine ⟨before, hfirst.trans (hbefore.mono fun _ _ hw => hw.later hfirst d), ?_, hcatalog,
        hremoval⟩
      exact hafter.mono fun _ _ hw => hw.later hfirst d

/-- Where a catalog was saved there stands in the end what the run wrote there last. -/
theorem content?_of_saves {c : Catalog} (hdevice : tree.hasDevice c.file = false)
    {before turn after : FileTree} (hc : c ∈ catalogs)
    (hbefore : tree.Rewrites (s.Writes refused tree catalogs) before) (ht : s.touches c = true)
    (hsave : (s.left c).saveUnless refused before = .ok turn)
    (hafter : turn.Rewrites (s.Writes refused tree catalogs) after) :
    ∃ loc content, tree.locate c.file = .ok loc ∧ s.Writes refused tree catalogs loc content ∧
      after.content? c.file = some content ∧ after.contentAt? loc = some content := by
  obtain ⟨-, hwrite⟩ := Catalog.saveUnless_eq_ok.1 hsave
  obtain ⟨loc, hloc, hrewrites, hnode⟩ := FileTree.node?_write hwrite
  rw [file_left] at hloc
  have hfirst := hbefore.locate_iff.1 hloc
  have hlast := hafter.locate_iff.2 (hrewrites.locate_iff.2 hloc)
  have hturn : turn.node? loc = some (.file (s.left c).text.toUTF8) := by
    rcases hnode with h | h
    · exact h
    · rcases hbefore.nodes loc with hsame | ⟨content, hnew, -⟩
      · rw [FileTree.hasDevice_of_locate hfirst (hsame ▸ h)] at hdevice
        cases hdevice
      · rw [hnew] at h
        cases h
  have hsaves : s.saves refused tree c = true := by
    rw [← saves_eq hbefore, saves, ht, hsave]
    rfl
  rw [FileTree.content?_of_locate hlast]
  rcases hafter.nodes loc with h | ⟨content, h, hw⟩
  · rw [hturn] at h
    exact ⟨loc, _, hfirst, ⟨c, hc, hsaves, hfirst, rfl⟩, by rw [h], by rw [FileTree.contentAt?, h]⟩
  · exact ⟨loc, content, hfirst, hw, by rw [h], by rw [FileTree.contentAt?, h]⟩

/-! ## Catalogs and removals -/

theorem left_of_not_touches {c : Catalog} (h : s.touches c = false) :
    c.prunedBy (s.of? c.locale) = ⟨c, [], []⟩ := by
  unfold touches at h
  unfold Catalog.prunedBy
  cases hentry : (s.of? c.locale).filter (!·.isEmpty) with
  | none => rfl
  | some entry => simp [hentry] at h

theorem isSaved_handleUnless (refused : Path → Option FileError) (s : Surplus) (tree : FileTree)
    (c : Catalog) :
    (c.handleUnless refused (s.of? c.locale) .remove tree).2.2.isSaved =
      s.saves refused tree c := by
  unfold saves
  rcases handleUnless_cases refused s tree c with ⟨ht, h⟩ | ⟨saving, tree', ht, h, hsave⟩
  · rw [h, ht]
    rfl
  · rw [h, ht]
    rcases hsave with ⟨rfl, hok⟩ | ⟨e, rfl, herror, -⟩
    · rw [hok]
      rfl
    · rw [herror]
      rfl

/-- A catalog is saved when its own file can be written, whatever becomes of the others. -/
theorem isSaved_pruneUnless (refused : Path → Option FileError) (s : Surplus) (tree : FileTree)
    (catalogs : List Catalog) :
    (s.pruneUnless refused .remove tree catalogs).removals.map (·.isSaved) =
      catalogs.map (s.saves refused tree) := by
  induction catalogs generalizing tree with
  | nil => rfl
  | cons c catalogs ih =>
    have hfirst := rewrites_handleUnless refused s tree (List.mem_singleton_self c)
    have hlater := ih (c.handleUnless refused (s.of? c.locale) .remove tree).1
    rw [List.map_congr_left fun d _ => saves_eq hfirst d] at hlater
    rw [List.map_cons, ← isSaved_handleUnless, ← hlater]
    rfl

/-- A run writes the files of catalogs with something to remove, a trial run none. -/
theorem rewrites_prune (s : Surplus) (mode : Mode) (tree : FileTree) (catalogs : List Catalog) :
    tree.Rewrites (fun loc _ => mode = .remove ∧
        ∃ c ∈ catalogs, s.touches c = true ∧ tree.locate c.file = .ok loc)
      (s.prune mode tree catalogs).tree := by
  cases mode with
  | trial =>
    rw [prune, pruneUnless_trial]
    exact .refl _ tree
  | remove =>
    refine (rewrites_pruneUnless _ s tree catalogs).mono fun loc content hw => ?_
    obtain ⟨c, hc, hsaves, hloc, -⟩ := hw
    rw [saves, Bool.and_eq_true] at hsaves
    exact ⟨rfl, c, hc, hsaves.1, hloc⟩

end Surplus

/-! ## Catalogs with files of their own -/

theorem eq_of_nodup_filterMap {α β : Type} {f : α → Option β} {l : List α}
    (h : (l.filterMap f).Nodup) {a b : α} (ha : a ∈ l) (hb : b ∈ l) {x : β} (hfa : f a = some x)
    (hfb : f b = some x) : a = b := by
  have hpairs := List.pairwise_filterMap.1 h
  exact List.Pairwise.forall_of_forall_of_flip (R := fun a b => f a = some x → f b = some x → a = b)
    (fun _ _ _ _ => rfl) (hpairs.imp fun hne ha hb => absurd rfl (hne x ha x hb))
    (hpairs.imp fun hne hb ha => absurd rfl (hne x ha x hb)) ha hb hfa hfb

/-- No two catalogs have the same file, and no file is a device. This is what it means that the
file paths of catalogs are distinct: paths that are spelled differently may lead to one location,
and there the catalog that is saved last would be left. A device forgets what is written, so its
path would never hold a catalog that was saved. -/
structure OwnFiles (tree : FileTree) (catalogs : List Catalog) : Prop where
  distinct : (catalogs.filterMap fun c => (tree.locate c.file).toOption).Nodup
  noDevice : ∀ c ∈ catalogs, tree.hasDevice c.file = false

theorem OwnFiles.eq_of_locate {tree : FileTree} {catalogs : List Catalog}
    (h : OwnFiles tree catalogs) {c d : Catalog} (hc : c ∈ catalogs) (hd : d ∈ catalogs)
    {loc : Location} (hcloc : tree.locate c.file = .ok loc) (hdloc : tree.locate d.file = .ok loc) :
    c = d := by
  refine eq_of_nodup_filterMap h.distinct hc hd (x := loc) ?_ ?_
  · rw [hcloc]
    rfl
  · rw [hdloc]
    rfl

namespace Surplus

variable {refused : Path → Option FileError} {s : Surplus} {tree tree' : FileTree}
  {catalogs : List Catalog}

/-- Where a catalog has its file for itself, only its own turn writes there. -/
theorem Writes.own (hfiles : OwnFiles tree catalogs) {c : Catalog} (hc : c ∈ catalogs)
    {loc : Location} (hloc : tree.locate c.file = .ok loc) {content : ByteArray}
    (hw : s.Writes refused tree catalogs loc content) :
    s.saves refused tree c = true ∧ content = (s.left c).text.toUTF8 := by
  obtain ⟨d, hd, hsaves, hdloc, hcontent⟩ := hw
  obtain rfl := hfiles.eq_of_locate hc hd hloc hdloc
  exact ⟨hsaves, hcontent⟩

end Surplus

end CatalogAudit
