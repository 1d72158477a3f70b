/-
  CatalogAudit.Proofs.Surplus.Pruning — what pruning leaves of a catalog.

  A surplus covers a leaf when one of its keys leads to it or to what stands above it, or one
  of its namespaces is the top-level entry that it lies in. Pruning takes away exactly the
  leaves that are covered and keeps the others in order (`leaves_prune`). It leaves no empty
  container (`isCompact_prune`). A namespace counts as removed when it stood at the root and
  no key had deleted it before (`namespaces_prune`).

  A run over all catalogs prunes each by its own entry in the report, saved or not
  (`catalogs_pruneUnless`), and its removal says what was deleted (`removals_pruneUnless`).
  Whether a file cannot be written makes no difference to that.
-/

import CatalogAudit.Proofs.Catalog.Compact
import CatalogAudit.Proofs.Catalog.Deletion
import CatalogAudit.Surplus
import Mathlib.Data.List.Nodup

namespace CatalogAudit

/-- Whether a surplus names a path or what stands above it, by a key or by a namespace. -/
def LocaleSurplus.covers (s : LocaleSurplus) (path : List String) : Bool :=
  (s.keys.any fun key => (keySegments key).isPrefixOf path) ||
    path.head?.any s.namespaces.contains

/-- Whether a leaf is used: its dotted key and the namespace that it lies in. -/
def Usage.usesLeaf (usage : Usage) (leaf : List String × Json) : Bool :=
  usage.keys.has (dottedKey leaf.1) && leaf.1.head?.any usage.namespaces.has

namespace Catalog

variable {c : Catalog}

/-! ## Any surplus -/

theorem root_prune (c : Catalog) (s : LocaleSurplus) :
    (c.prune s).catalog.root =
      Members.pruned ((c.root.deleteEach s.keys).2.deleteTopEach s.namespaces).2 := rfl

theorem leaves_prune (c : Catalog) (s : LocaleSurplus) :
    (c.prune s).catalog.root.leaves = c.root.leaves.filter fun leaf => !s.covers leaf.1 := by
  rw [root_prune, Members.leaves_pruned, Members.left_deleteTopEach,
    Members.leaves_filter_key (!s.namespaces.contains ·), Members.leaves_deleteEach c.distinct,
    List.filter_filter]
  refine List.filter_congr fun leaf hl => ?_
  obtain ⟨first, -, rest, hr⟩ := Members.exists_cons_of_mem_leaves hl
  simp [LocaleSurplus.covers, hr, List.any_eq_not_all_not, Bool.and_comm]

theorem isCompact_prune (c : Catalog) (s : LocaleSurplus) :
    (c.prune s).catalog.root.isCompact = true :=
  Members.isCompact_pruned _

/-- The namespaces that are removed are those that stood at the root and that no key had
deleted there. -/
theorem namespaces_prune {s : LocaleSurplus} (hn : s.namespaces.Nodup) :
    (c.prune s).namespaces = s.namespaces.filter fun name =>
      c.root.has name && s.keys.all fun key => keySegments key ≠ [name] := by
  show ((c.root.deleteEach s.keys).2.deleteTopEach s.namespaces).1 = _
  rw [Members.deleted_deleteTopEach _ hn]
  refine List.filter_congr fun name _ => ?_
  rw [Bool.eq_iff_iff, Assoc.has_iff_mem_names, Members.names_deleteEach c.distinct,
    List.mem_filter, Bool.and_eq_true, Assoc.has_iff_mem_names]

/-! ## One step of a run -/

/-- What pruning makes of a catalog, given its entry in the report. -/
def prunedBy (c : Catalog) (entry : Option LocaleSurplus) : Pruning :=
  match entry.filter (!·.isEmpty) with
  | none => ⟨c, [], []⟩
  | some s => c.prune s

theorem prunedBy_some (c : Catalog) (s : LocaleSurplus) :
    c.prunedBy (some s) = if s.isEmpty then ⟨c, [], []⟩ else c.prune s := by
  cases h : s.isEmpty <;> simp [prunedBy, Option.filter, h]

/-- The locale and the file of a catalog have no part in what its surplus leaves of it. -/
theorem root_prunedBy_surplus {c d : Catalog} (h : c.root = d.root) (usage : Usage) :
    (c.prunedBy (some (c.surplus usage))).catalog.root =
      (d.prunedBy (some (d.surplus usage))).catalog.root := by
  have hkeys : (c.surplus usage).keys = (d.surplus usage).keys := by
    rw [surplus, surplus, keys, keys, h]
  have hnamespaces : (c.surplus usage).namespaces = (d.surplus usage).namespaces := by
    rw [surplus, surplus, namespaces, namespaces, h]
  rw [prunedBy_some, prunedBy_some, LocaleSurplus.isEmpty, LocaleSurplus.isEmpty, hkeys,
    hnamespaces]
  split
  · exact h
  · rw [root_prune, root_prune, h, hkeys, hnamespaces]

theorem locale_prunedBy (c : Catalog) (entry : Option LocaleSurplus) :
    (c.prunedBy entry).catalog.locale = c.locale := by
  unfold prunedBy
  split <;> rfl

/-- An entry of the report takes away what it covers, an empty one nothing. -/
theorem leaves_prunedBy_some (c : Catalog) (s : LocaleSurplus) :
    (c.prunedBy (some s)).catalog.root.leaves =
      c.root.leaves.filter fun leaf => !s.covers leaf.1 := by
  rw [prunedBy_some]
  split
  · next he =>
    simp only [LocaleSurplus.isEmpty, Bool.and_eq_true, List.isEmpty_iff] at he
    refine (List.filter_eq_self.2 fun leaf _ => ?_).symm
    cases leaf.1 <;> simp [LocaleSurplus.covers, he]
  · exact leaves_prune c s

/-- The catalog is pruned whatever becomes of its file. -/
theorem handleUnless_catalog (refused : Path → Option FileError) (c : Catalog)
    (entry : Option LocaleSurplus) (tree : FileTree) :
    (c.handleUnless refused entry .remove tree).2.1 = (c.prunedBy entry).catalog := by
  unfold handleUnless prunedBy
  cases entry.filter (!·.isEmpty) with
  | none => rfl
  | some s =>
    dsimp only
    split <;> rfl

/-- The removal says what was deleted, on a trial run too. -/
theorem handleUnless_removal (refused : Path → Option FileError) (c : Catalog)
    (entry : Option LocaleSurplus) (mode : Mode) (tree : FileTree) :
    (c.handleUnless refused entry mode tree).2.2.locale = c.locale ∧
      (c.handleUnless refused entry mode tree).2.2.keys = (c.prunedBy entry).keys ∧
      (c.handleUnless refused entry mode tree).2.2.namespaces = (c.prunedBy entry).namespaces := by
  unfold handleUnless prunedBy
  cases entry.filter (!·.isEmpty) with
  | none => exact ⟨rfl, rfl, rfl⟩
  | some s =>
    cases mode with
    | trial => exact ⟨rfl, rfl, rfl⟩
    | remove =>
      dsimp only
      split <;> exact ⟨rfl, rfl, rfl⟩

end Catalog

/-! ## All catalogs -/

namespace Surplus

/-- What is left of a catalog. -/
def left (s : Surplus) (c : Catalog) : Catalog := (c.prunedBy (s.of? c.locale)).catalog

@[simp] theorem file_left (s : Surplus) (c : Catalog) : (s.left c).file = c.file := by
  unfold left Catalog.prunedBy
  split <;> rfl

section

variable (refused : Path → Option FileError) (s : Surplus)

/-- Each catalog is pruned by its own entry. -/
theorem catalogs_pruneUnless (tree : FileTree) (catalogs : List Catalog) :
    (s.pruneUnless refused .remove tree catalogs).catalogs = catalogs.map s.left := by
  induction catalogs generalizing tree with
  | nil => rfl
  | cons c catalogs ih =>
    rw [pruneUnless, List.map_cons, left, ← Catalog.handleUnless_catalog refused c _ tree, ← ih]

/-- The removals say what was deleted, whatever became of the files. -/
theorem removals_pruneUnless (mode : Mode) (tree : FileTree) (catalogs : List Catalog) :
    (s.pruneUnless refused mode tree catalogs).removals.map
        (fun r => (r.locale, r.keys, r.namespaces)) =
      catalogs.map fun c => (c.locale, (c.prunedBy (s.of? c.locale)).keys,
        (c.prunedBy (s.of? c.locale)).namespaces) := by
  induction catalogs generalizing tree with
  | nil => rfl
  | cons c catalogs ih =>
    obtain ⟨hlocale, hkeys, hnamespaces⟩ :=
      Catalog.handleUnless_removal refused c (s.of? c.locale) mode tree
    rw [pruneUnless, List.map_cons, List.map_cons, hlocale, hkeys, hnamespaces, ih]

/-- A trial run finds what there is to delete and leaves everything as it is. -/
theorem pruneUnless_trial (tree : FileTree) (catalogs : List Catalog) :
    s.pruneUnless refused .trial tree catalogs = ⟨tree, catalogs, catalogs.map fun c =>
      ⟨c.locale, (c.prunedBy (s.of? c.locale)).keys, (c.prunedBy (s.of? c.locale)).namespaces,
        .untouched⟩⟩ := by
  induction catalogs with
  | nil => rfl
  | cons c catalogs ih =>
    rw [pruneUnless, Catalog.handleUnless, List.map_cons, Catalog.prunedBy]
    cases (s.of? c.locale).filter (!·.isEmpty) <;> simp [Removal.none, ih]

end

/-- The run that no write is refused in. -/
theorem catalogs_prune (s : Surplus) (tree : FileTree) (catalogs : List Catalog) :
    (s.prune .remove tree catalogs).catalogs = catalogs.map s.left :=
  catalogs_pruneUnless _ s tree catalogs

theorem length_catalogs_prune (s : Surplus) (tree : FileTree) (catalogs : List Catalog) :
    (s.prune .remove tree catalogs).catalogs.length = catalogs.length := by
  rw [catalogs_prune, List.length_map]

/-- Where no other catalog has its locale, the entry of a catalog in the report is its own. -/
theorem of?_ofCatalogs_of_unique (usage : Usage) {catalogs : List Catalog} {c : Catalog}
    (hc : c ∈ catalogs) (hunique : ∀ d ∈ catalogs, d.locale = c.locale → d = c) :
    (ofCatalogs usage catalogs).of? c.locale = some (c.surplus usage) := by
  induction catalogs with
  | nil => cases hc
  | cons d catalogs ih =>
    obtain ⟨hd, hunique⟩ := List.forall_mem_cons.1 hunique
    by_cases hlocale : d.locale = c.locale
    · rw [hd hlocale]
      exact List.find?_cons_of_pos (by simp [Catalog.surplus])
    · have hmem : c ∈ catalogs := (List.mem_cons.1 hc).resolve_left fun e => hlocale (e ▸ rfl)
      rw [← ih hmem hunique]
      exact List.find?_cons_of_neg (by simp [Catalog.surplus, hlocale])

theorem of?_ofCatalogs (usage : Usage) {catalogs : List Catalog}
    (hn : (catalogs.map (·.locale)).Nodup) {c : Catalog} (hc : c ∈ catalogs) :
    (ofCatalogs usage catalogs).of? c.locale = some (c.surplus usage) :=
  of?_ofCatalogs_of_unique usage hc fun _ hd he => List.inj_on_of_nodup_map hn hd hc he

theorem catalogs_prune_ofCatalogs (usage : Usage) (tree : FileTree) {catalogs : List Catalog}
    (hn : (catalogs.map (·.locale)).Nodup) :
    ((ofCatalogs usage catalogs).prune .remove tree catalogs).catalogs =
      catalogs.map fun c => (c.prunedBy (some (c.surplus usage))).catalog := by
  rw [catalogs_prune]
  refine List.map_congr_left fun c hc => ?_
  rw [left, of?_ofCatalogs usage hn hc]

theorem removals_prune_ofCatalogs (usage : Usage) (mode : Mode) (tree : FileTree)
    {catalogs : List Catalog} (hn : (catalogs.map (·.locale)).Nodup) :
    ((ofCatalogs usage catalogs).prune mode tree catalogs).removals.map
        (fun r => (r.locale, r.keys, r.namespaces)) =
      catalogs.map fun c => (c.locale, (c.prunedBy (some (c.surplus usage))).keys,
        (c.prunedBy (some (c.surplus usage))).namespaces) := by
  rw [prune, removals_pruneUnless]
  refine List.map_congr_left fun c hc => ?_
  rw [of?_ofCatalogs usage hn hc]

section Places

variable {usage : Usage} {tree : FileTree} {catalogs : List Catalog} {i : Nat} {c : Catalog}

/-- What stands in the place of a catalog after the run. -/
theorem catalog_prune_ofCatalogs (hn : (catalogs.map (·.locale)).Nodup)
    (hc : catalogs[i]? = some c) {d : Catalog}
    (hd : ((ofCatalogs usage catalogs).prune .remove tree catalogs).catalogs[i]? = some d) :
    d = (c.prunedBy (some (c.surplus usage))).catalog := by
  rw [catalogs_prune_ofCatalogs usage tree hn, List.getElem?_map, hc] at hd
  exact (Option.some.inj hd).symm

theorem removal_prune_ofCatalogs (hn : (catalogs.map (·.locale)).Nodup)
    (hc : catalogs[i]? = some c) {mode : Mode} {removal : Removal}
    (hr : ((ofCatalogs usage catalogs).prune mode tree catalogs).removals[i]? = some removal) :
    removal.keys = (c.prunedBy (some (c.surplus usage))).keys ∧
      removal.namespaces = (c.prunedBy (some (c.surplus usage))).namespaces := by
  have hlist := congrArg (·[i]?) (removals_prune_ofCatalogs usage mode tree hn)
  simp only [List.getElem?_map, hc, hr, Option.map_some, Option.some.injEq, Prod.mk.injEq] at hlist
  exact hlist.2

end Places

end Surplus

end CatalogAudit
