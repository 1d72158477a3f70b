/-
  CatalogAudit.Proofs.Surplus.Convergence — one run removes all there is to remove.

  Where every key is plain, a pruned catalog has no surplus left: its leaves are used ones, and
  as no container in it is empty every key of its root leads to one of them
  (`isEmpty_surplus_left`). A report without surplus is idle: nothing is removed, nothing is
  written (`settled_of_isEmpty`).

  What was written reads back as the catalog that was written, when its numbers are integers
  (`load_after_prune`): a pruned catalog is a trimmed one, so it nests no deeper than the one that
  was read. So the catalogs that are loaded after the run are settled too (`prune_converges`).
-/

import CatalogAudit.Proofs.Catalog.Loading
import CatalogAudit.Proofs.Catalog.Trimmed
import CatalogAudit.Proofs.Surplus.PlainKeys
import CatalogAudit.Proofs.Surplus.Saving

namespace CatalogAudit

/-! ## Nothing is left to remove -/

namespace Catalog

variable {c : Catalog}

theorem isEmpty_surplus_iff {usage : Usage} :
    (c.surplus usage).isEmpty = true ↔
      (∀ name ∈ c.root.names, name ∈ usage.namespaces) ∧
        ∀ leaf ∈ c.root.leaves, dottedKey leaf.1 ∈ usage.keys := by
  rw [LocaleSurplus.isEmpty, Bool.and_eq_true, List.isEmpty_iff, List.isEmpty_iff,
    List.eq_nil_iff_forall_not_mem, List.eq_nil_iff_forall_not_mem]
  refine and_congr (forall_congr' fun name => ?_) ⟨fun h leaf hl => ?_, fun h key hk => ?_⟩
  · rw [mem_namespaces_surplus, not_and, Classical.not_not]
  · exact Classical.byContradiction fun hn => h _ (mem_keys_surplus.2 ⟨⟨leaf, hl, rfl⟩, hn⟩)
  · obtain ⟨⟨leaf, hl, rfl⟩, hn⟩ := mem_keys_surplus.1 hk
    exact hn (h leaf hl)

/-- A catalog whose leaves are all used, and that has no empty container, has no surplus. -/
theorem isEmpty_surplus_of_leaves {usage : Usage} (hc : c.root.isCompact = true)
    (hl : ∀ leaf ∈ c.root.leaves, usage.usesLeaf leaf = true) :
    (c.surplus usage).isEmpty = true := by
  have hused : ∀ leaf ∈ c.root.leaves,
      dottedKey leaf.1 ∈ usage.keys ∧ ∃ name ∈ leaf.1.head?, name ∈ usage.namespaces := by
    intro leaf hm
    have h := hl leaf hm
    simpa [Usage.usesLeaf, NameSet.has_iff, Option.any_eq_true] using h
  refine isEmpty_surplus_iff.2 ⟨fun name hn => ?_, fun leaf hm => (hused leaf hm).1⟩
  have hentry : c.root.hasEntry [name] = true := Assoc.has_iff_mem_names.2 hn
  obtain ⟨leaf, hm, hp⟩ := Members.exists_leaf_of_hasEntry hc hentry
  obtain ⟨-, first, hfirst, hmem⟩ := hused leaf hm
  obtain ⟨rest, hrest⟩ := hp
  rw [← hrest] at hfirst
  cases hfirst
  exact hmem

end Catalog

/-- The usage leaves nothing to remove from the catalogs, and a run finds nothing, changes
nothing and writes nothing. -/
structure Settled (usage : Usage) (catalogs : List Catalog) : Prop where
  nothing : (Surplus.ofCatalogs usage catalogs).isAny = false
  idle : ∀ mode tree, (Surplus.ofCatalogs usage catalogs).prune mode tree catalogs =
    ⟨tree, catalogs, catalogs.map fun c => .none c.locale⟩

namespace Surplus

variable {usage : Usage} {catalogs : List Catalog}

theorem prune_of_not_touches {s : Surplus} (h : ∀ c ∈ catalogs, s.touches c = false) (mode : Mode)
    (tree : FileTree) :
    s.prune mode tree catalogs = ⟨tree, catalogs, catalogs.map fun c => .none c.locale⟩ := by
  rw [prune]
  induction catalogs with
  | nil => rfl
  | cons c catalogs ih =>
    obtain ⟨hc, hcatalogs⟩ := List.forall_mem_cons.1 h
    rw [touches, Option.isSome_eq_false_iff, Option.isNone_iff_eq_none] at hc
    rw [pruneUnless, Catalog.handleUnless, hc, List.map_cons]
    dsimp only
    rw [ih hcatalogs]

theorem settled_of_isEmpty (h : ∀ c ∈ catalogs, (c.surplus usage).isEmpty = true) :
    Settled usage catalogs := by
  have hentries : ∀ entry ∈ ofCatalogs usage catalogs, entry.isEmpty = true := by
    intro entry hentry
    obtain ⟨c, hc, rfl⟩ := List.mem_map.1 hentry
    exact h c hc
  refine ⟨?_, fun mode tree => prune_of_not_touches (fun c _ => ?_) mode tree⟩
  · rw [isAny, List.any_eq_false]
    exact fun entry hentry => by simp [hentries entry hentry]
  · rw [touches, Option.isSome_eq_false_iff, Option.isNone_iff_eq_none, Option.filter_eq_none_iff]
    intro entry hentry
    simp [hentries entry (List.mem_of_find?_eq_some hentry)]

/-- With distinct locales the report touches a catalog when that has a surplus. -/
theorem touches_ofCatalogs (hn : (catalogs.map (·.locale)).Nodup) {c : Catalog}
    (hc : c ∈ catalogs) :
    (ofCatalogs usage catalogs).touches c = !(c.surplus usage).isEmpty := by
  rw [touches, of?_ofCatalogs usage hn hc]
  cases h : (c.surplus usage).isEmpty <;> simp [Option.filter, h]

/-- Pruning leaves no surplus. -/
theorem isEmpty_surplus_left (hcatalogs : PlainCatalogs catalogs) {c : Catalog}
    (hc : c ∈ catalogs) : (((ofCatalogs usage catalogs).left c).surplus usage).isEmpty = true := by
  have hp := hcatalogs.plainKeys c hc
  rw [left, of?_ofCatalogs usage hcatalogs.locales hc]
  have hleaves := Catalog.leaves_prunedBy_surplus hp usage
  rw [Catalog.prunedBy_some] at hleaves ⊢
  split at hleaves
  · next he =>
    rw [if_pos he]
    exact he
  · next he =>
    rw [if_neg he]
    refine Catalog.isEmpty_surplus_of_leaves (Catalog.isCompact_prune c _) fun leaf hl => ?_
    rw [hleaves] at hl
    exact (List.mem_filter.1 hl).2

end Surplus

/-! ## Loading what was written -/

/-- A catalog that can be loaded again after a run: a catalog of the directory, its entries were
read from a text and its numbers are integers. It need not be in its file before the run, unless
the run does not write it. -/
structure Reloadable (usage : Usage) (tree : FileTree) (dir : Path) (c : Catalog) : Prop where
  file : c.file = Catalog.fileOf dir c.locale
  read : ∃ text, Catalog.rootOfText text = .ok c.root
  integers : c.root.hasOnlyIntegers = true
  noDevice : tree.hasDevice c.file = false
  unwritten : (c.surplus usage).isEmpty = true → Catalog.load tree dir c.locale = .ok c

namespace Surplus

variable {usage : Usage} {tree : FileTree} {dir : Path} {catalogs : List Catalog}

theorem trimmed_left (s : Surplus) (c : Catalog) :
    Members.Trimmed (s.left c).root c.root := by
  unfold left Catalog.prunedBy
  split
  · exact .refl _
  · exact Catalog.trimmed_prune c _

/-- What is left of a catalog reads back from its text. -/
theorem rootOfText_left {c : Catalog} (hc : Reloadable usage tree dir c) (s : Surplus) :
    Catalog.rootOfText (s.left c).text = .ok (s.left c).root := by
  obtain ⟨text, hread⟩ := hc.read
  have htrimmed := trimmed_left s c
  exact Catalog.rootOfText_trimmed hread htrimmed (htrimmed.hasOnlyIntegers hc.integers)

/-- After a run that saved whatever it touched, a catalog's file is as it was, or holds what the
run wrote there. -/
theorem content?_after_prune {s : Surplus} {c : Catalog} (hc : c ∈ catalogs)
    (hdevice : tree.hasDevice c.file = false)
    (hsaved : ∀ r ∈ (s.prune .remove tree catalogs).removals, r.saveError? = none) :
    s.touches c = false ∧ (s.prune .remove tree catalogs).tree.content? c.file =
        tree.content? c.file ∨
      ∃ loc content, tree.locate c.file = .ok loc ∧
        s.Writes (fun _ => none) tree catalogs loc content ∧
        (s.prune .remove tree catalogs).tree.content? c.file = some content := by
  rw [prune] at hsaved ⊢
  obtain ⟨i, hi⟩ := List.mem_iff_getElem?.1 hc
  obtain ⟨before, hbefore, hafter, -, hremoval⟩ := turn_pruneUnless (fun _ => none) s tree hi
  have hok := hsaved _ (List.mem_of_getElem? hremoval)
  rcases handleUnless_cases (fun _ => none) s before c with ⟨ht, -⟩ | ⟨saving, turn, ht, h, hsave⟩
  · rcases (rewrites_pruneUnless _ s tree catalogs).content?_cases c.file with he | hw
    · exact .inl ⟨ht, he⟩
    · exact .inr hw
  · rw [h] at hafter hok
    rcases hsave with ⟨rfl, hwritten⟩ | ⟨e, rfl, -, -⟩
    · obtain ⟨loc, content, hloc, hw, hread, -⟩ :=
        content?_of_saves hdevice hc hbefore ht hwritten hafter
      exact .inr ⟨loc, content, hloc, hw, hread⟩
    · cases hok

/-- After such a run a catalog is loaded with the entries that the run wrote to its file; where
it has the file for itself they are its own. -/
theorem load_after_prune (hcatalogs : PlainCatalogs catalogs)
    (hall : ∀ c ∈ catalogs, Reloadable usage tree dir c)
    (hsaved : ∀ r ∈ ((ofCatalogs usage catalogs).prune .remove tree catalogs).removals,
      r.saveError? = none) {c : Catalog} (hc : c ∈ catalogs) :
    ∃ d ∈ catalogs, (OwnFiles tree catalogs → d = c) ∧
      let left := (ofCatalogs usage catalogs).left d
      Catalog.load ((ofCatalogs usage catalogs).prune .remove tree catalogs).tree dir c.locale =
        .ok (c.withRoot left.root left.distinct) := by
  have hreload := hall c hc
  rcases content?_after_prune hc hreload.noDevice hsaved with
    ⟨ht, he⟩ | ⟨loc, content, hloc, hw, he⟩
  · have hleft : (ofCatalogs usage catalogs).left c = c := by rw [left, left_of_not_touches ht]
    rw [touches_ofCatalogs hcatalogs.locales hc, Bool.not_eq_false'] at ht
    obtain ⟨text, htext, hroot, -, -⟩ := Catalog.load_eq_ok.1 (hreload.unwritten ht)
    obtain ⟨content, hcontent, hutf8⟩ := FileTree.readText_eq_ok.1 htext
    rw [← hreload.file] at hcontent
    refine ⟨c, hc, fun _ => rfl, Catalog.load_eq_ok.2 ⟨text, ?_, ?_, rfl, hreload.file⟩⟩
    · exact FileTree.readText_eq_ok.2 ⟨content, hreload.file ▸ he.trans hcontent, hutf8⟩
    · rw [hleft]
      exact hroot
  · obtain ⟨d, hd, -, hdloc, rfl⟩ := hw
    have hroot := rootOfText_left (hall d hd) (ofCatalogs usage catalogs)
    refine ⟨d, hd, fun hown => hown.eq_of_locate hd hc hdloc hloc,
      Catalog.load_eq_ok.2 ⟨_, ?_, hroot, rfl, hreload.file⟩⟩
    exact FileTree.readText_eq_ok.2 ⟨_, hreload.file ▸ he, Text.fromUTF8?_toUTF8 _⟩

/-- After one run nothing is left to remove, in the catalogs and in those that are loaded again
from their files. -/
theorem prune_converges (usage : Usage) (tree : FileTree) {catalogs : List Catalog}
    (hcatalogs : PlainCatalogs catalogs) :
    let result := (ofCatalogs usage catalogs).prune .remove tree catalogs
    Settled usage result.catalogs ∧
      ∀ dir : Path, (∀ c ∈ catalogs, Reloadable usage tree dir c) →
        (∀ r ∈ result.removals, r.saveError? = none) →
        let store := Catalog.loadAll result.tree dir (catalogs.map (·.locale))
        store.failures = [] ∧ Settled usage store.catalogs ∧
          (OwnFiles tree catalogs → store.catalogs = result.catalogs) := by
  intro result
  have hleft : result.catalogs = catalogs.map (ofCatalogs usage catalogs).left :=
    catalogs_prune _ tree catalogs
  refine ⟨settled_of_isEmpty fun d hd => ?_, ?_⟩
  · rw [hleft] at hd
    obtain ⟨c, hc, rfl⟩ := List.mem_map.1 hd
    exact isEmpty_surplus_left hcatalogs hc
  · intro dir hall hsaved store
    have hload := fun c hc => load_after_prune (c := c) hcatalogs hall hsaved hc
    have hstore : store.failures = [] ∧
        ∀ d ∈ store.catalogs, (d.surplus usage).isEmpty = true := by
      refine Catalog.loadAll_of_exists fun locale hlocale => ?_
      obtain ⟨c, hc, rfl⟩ := List.mem_map.1 hlocale
      obtain ⟨d, hd, -, hd'⟩ := hload c hc
      have hempty : (((ofCatalogs usage catalogs).left d).surplus usage).isEmpty = true :=
        isEmpty_surplus_left hcatalogs hd
      exact ⟨_, hd', Catalog.isEmpty_surplus_iff.2 (Catalog.isEmpty_surplus_iff.1 hempty)⟩
    refine ⟨hstore.1, settled_of_isEmpty hstore.2, fun hown => ?_⟩
    have hown : ∀ c ∈ catalogs, Catalog.load result.tree dir c.locale =
        .ok ((ofCatalogs usage catalogs).left c) := by
      intro c hc
      obtain ⟨d, -, heq, hd'⟩ := hload c hc
      rw [heq hown] at hd'
      rw [hd']
      exact congrArg _ (Catalog.ext (Catalog.locale_prunedBy c _).symm (file_left _ c).symm rfl)
    rw [hleft]
    exact congrArg (·.catalogs) (Catalog.loadAll_of_forall hown)

/-- A catalog that was loaded from the directory can be loaded from there again. -/
theorem reloadable_of_load {locale : String} {c : Catalog}
    (h : Catalog.load tree dir locale = .ok c) (hn : c.root.hasOnlyIntegers = true) :
    Reloadable usage tree dir c := by
  obtain ⟨loc, content, hloc, hnode, text, -, hroot⟩ := Catalog.exists_file_of_load h
  obtain ⟨-, -, -, rfl, hfile⟩ := Catalog.load_eq_ok.1 h
  exact ⟨hfile, ⟨text, hroot⟩, hn, FileTree.hasDevice_of_file hloc hnode, fun _ => h⟩

/-- A catalog in its file, with numbers that stay. -/
def storedText : String :=
  "\x7b\"home\": \x7b\"title\": \"Home\", \"stale\": \"Old\"\x7d, \"common\": [1, -2]\x7d"

def storedTree : FileTree :=
  ⟨[], [(["messages"], .directory), (["messages", "en.json"], .file storedText.toUTF8)]⟩

def storedCatalog : Catalog :=
  ⟨"en", ⟨"messages/en.json"⟩, [("home", .obj [("title", .str "Home"), ("stale", .str "Old")]),
    ("common", .arr [.num (.int 1), .num (.int (-2))])], by decide⟩

def storedUsage : Usage := ⟨.ofList ["common", "home"], .ofList ["common", "home.title"]⟩

theorem load_storedTree : Catalog.load storedTree ⟨"messages"⟩ "en" = .ok storedCatalog := rfl

theorem prune_converges_stored :
    PlainCatalogs [storedCatalog] ∧
      let result := (ofCatalogs storedUsage [storedCatalog]).prune .remove storedTree
        [storedCatalog]
      result.removals.map (·.keys) = [["home.stale"]] ∧
        Settled storedUsage result.catalogs ∧
        (Catalog.loadAll result.tree ⟨"messages"⟩ ["en"]).catalogs = result.catalogs ∧
        Settled storedUsage (Catalog.loadAll result.tree ⟨"messages"⟩ ["en"]).catalogs := by
  have hplain : PlainCatalogs [storedCatalog] := ⟨by decide, by decide⟩
  have hown : OwnFiles storedTree [storedCatalog] := ⟨by decide +kernel, by decide +kernel⟩
  obtain ⟨hsettled, hreload⟩ := prune_converges storedUsage storedTree hplain
  obtain ⟨-, hloaded, hsame⟩ := hreload ⟨"messages"⟩
    (List.forall_mem_singleton.2 (reloadable_of_load load_storedTree rfl)) (by decide +kernel)
  exact ⟨hplain, by decide +kernel, hsettled, hsame hown, hloaded⟩

end Surplus

end CatalogAudit
