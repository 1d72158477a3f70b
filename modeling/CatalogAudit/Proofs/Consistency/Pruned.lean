/-
  CatalogAudit.Proofs.Consistency.Pruned — pruning catalogs and comparing them.

  Where every key is plain, the keys of a pruned catalog are those of the catalog that are used
  together with their namespace (`keys_prunedBy_surplus`). Which ones these are depends on the
  key alone and not on the catalog, so what is exclusive to one of two catalogs is filtered in
  the same way (`exclusive_of_filter`), although each is pruned by its own surplus and one
  without surplus is not pruned at all.

  `exclusive_prune` says so for all pairs of a run. In particular catalogs that agree before
  agree afterwards.
-/

import CatalogAudit.Proofs.Consistency.Verdict
import CatalogAudit.Proofs.Surplus.PlainKeys

namespace CatalogAudit

/-- Whether a dotted key is used: the key itself and the namespace that is its first segment. -/
def Usage.usesKey (usage : Usage) (key : String) : Bool :=
  usage.keys.has key && (keySegments key).head?.any usage.namespaces.has

theorem Usage.usesLeaf_eq_usesKey (usage : Usage) {ms : Members}
    (hp : ms.hasPlainKeys = true) {leaf : List String × Json} (hl : leaf ∈ ms.leaves) :
    usage.usesLeaf leaf = usage.usesKey (dottedKey leaf.1) := by
  rw [usesLeaf, usesKey, Members.keySegments_leaf hp hl]

/-! ## Two catalogs -/

namespace Catalog

theorem keys_prunedBy_surplus {c : Catalog} (hp : c.root.hasPlainKeys = true) (usage : Usage) :
    (c.prunedBy (some (c.surplus usage))).catalog.keys = c.keys.filter usage.usesKey := by
  have hused : c.root.leaves.filter usage.usesLeaf =
      c.root.leaves.filter fun leaf => usage.usesKey (dottedKey leaf.1) :=
    List.filter_congr fun leaf hl => usage.usesLeaf_eq_usesKey hp hl
  show (c.prunedBy (some (c.surplus usage))).catalog.root.leafKeys = c.root.leafKeys.filter _
  rw [Members.leafKeys, Members.leafKeys, leaves_prunedBy_surplus hp, hused, List.filter_map]
  rfl

/-- When both catalogs keep their keys by one rule, so does what is exclusive to the first. -/
theorem exclusive_of_filter {c d c' d' : Catalog} {keep : String → Bool}
    (hlocale : c'.locale = c.locale) (hother : d'.locale = d.locale)
    (hc : c'.keys = c.keys.filter keep) (hd : d'.keys = d.keys.filter keep) :
    c'.exclusive d' = { c.exclusive d with keys := (c.exclusive d).keys.filter keep } := by
  have hkeys : c'.keys.filter (!d'.keys.contains ·) =
      (c.keys.filter (!d.keys.contains ·)).filter keep := by
    rw [hc, hd, List.filter_filter, List.filter_filter]
    refine List.filter_congr fun key _ => ?_
    cases hkeep : keep key with
    | false => simp
    | true => simp [hkeep]
  show Exclusive.mk c'.locale d'.locale _ = _
  rw [hlocale, hother, hkeys]
  rfl

theorem exclusive_prunedBy_surplus {c d : Catalog} (hc : c.root.hasPlainKeys = true)
    (hd : d.root.hasPlainKeys = true) (usage : Usage) :
    (c.prunedBy (some (c.surplus usage))).catalog.exclusive
        (d.prunedBy (some (d.surplus usage))).catalog =
      { c.exclusive d with keys := (c.exclusive d).keys.filter usage.usesKey } :=
  exclusive_of_filter (locale_prunedBy c _) (locale_prunedBy d _)
    (keys_prunedBy_surplus hc usage) (keys_prunedBy_surplus hd usage)

end Catalog

/-! ## All pairs -/

theorem pairsBetween_map {α β : Type} (f : α → β) (xs : List α) :
    pairsBetween (xs.map f) = (pairsBetween xs).map fun p => (f p.1, f p.2) := by
  refine List.ext_getElem? fun place => Option.ext fun p => ?_
  rw [getElem?_pairsBetween_iff]
  simp only [List.getElem?_map, Option.map_eq_some_iff, getElem?_pairsBetween_iff,
    List.length_map]
  constructor
  · rintro ⟨i, j, hne, ⟨x, hx, hfx⟩, ⟨y, hy, hfy⟩, hplace⟩
    exact ⟨(x, y), ⟨i, j, hne, hx, hy, hplace⟩, Prod.ext hfx hfy⟩
  · rintro ⟨q, ⟨i, j, hne, hx, hy, hplace⟩, rfl⟩
    exact ⟨i, j, hne, ⟨q.1, hx, rfl⟩, ⟨q.2, hy, rfl⟩, hplace⟩

/-- Comparing catalogs after the surplus of a usage is removed from them finds what comparing
them before found, less what is not used. Catalogs with the same keys have the same keys
afterwards. -/
theorem exclusive_prune (usage : Usage) (tree : FileTree) {catalogs : List Catalog}
    (hcatalogs : PlainCatalogs catalogs) :
    let result := (Surplus.ofCatalogs usage catalogs).prune .remove tree catalogs
    (Consistency.ofCatalogs usage result.catalogs).exclusive =
        (Consistency.ofCatalogs usage catalogs).exclusive.map
          (fun e => { e with keys := e.keys.filter usage.usesKey }) ∧
      ∀ (i j : Nat) (c d c' d' : Catalog), catalogs[i]? = some c → catalogs[j]? = some d →
        result.catalogs[i]? = some c' → result.catalogs[j]? = some d' →
        (∀ key, key ∈ c.keys ↔ key ∈ d.keys) → ∀ key, key ∈ c'.keys ↔ key ∈ d'.keys := by
  intro result
  refine ⟨?_, ?_⟩
  · have hresult : result.catalogs =
        catalogs.map fun c => (c.prunedBy (some (c.surplus usage))).catalog :=
      Surplus.catalogs_prune_ofCatalogs usage tree hcatalogs.locales
    simp only [Consistency.ofCatalogs, hresult, pairsBetween_map, List.map_map]
    refine List.map_congr_left fun p hp => ?_
    obtain ⟨hc, hd⟩ := mem_of_mem_pairsBetween hp
    exact Catalog.exclusive_prunedBy_surplus (hcatalogs.plainKeys p.1 hc)
      (hcatalogs.plainKeys p.2 hd) usage
  · have hkeys : ∀ c ∈ catalogs,
        (c.prunedBy (some (c.surplus usage))).catalog.keys = c.keys.filter usage.usesKey :=
      fun c hc => Catalog.keys_prunedBy_surplus (hcatalogs.plainKeys c hc) usage
    intro i j c d c' d' hc hd hc' hd' hsame key
    rw [Surplus.catalog_prune_ofCatalogs hcatalogs.locales hc hc',
      Surplus.catalog_prune_ofCatalogs hcatalogs.locales hd hd',
      hkeys c (List.mem_of_getElem? hc), hkeys d (List.mem_of_getElem? hd), List.mem_filter,
      List.mem_filter, hsame key]

/-- The Chinese catalog beside `homeCatalog`: it lacks a used key and a stale one, and has no
surplus itself. -/
def homeCatalogZh : Catalog :=
  ⟨"zh", ⟨"zh.json"⟩, [("common", .obj [("save", .str "保存")])], by decide⟩

/-- Of the keys that only the English catalog has, the used one is left. -/
theorem exclusive_prune_home :
    PlainCatalogs [homeCatalog, homeCatalogZh] ∧
      (Consistency.ofCatalogs homeUsage [homeCatalog, homeCatalogZh]).exclusive =
        [⟨"en", "zh", ["home.title", "home.stale", "legacy.banner", "count"]⟩,
          ⟨"zh", "en", []⟩] ∧
      (Consistency.ofCatalogs homeUsage ((Surplus.ofCatalogs homeUsage
        [homeCatalog, homeCatalogZh]).prune .remove ⟨[], []⟩
          [homeCatalog, homeCatalogZh]).catalogs).exclusive =
        [⟨"en", "zh", ["home.title"]⟩, ⟨"zh", "en", []⟩] := by
  have hplain : PlainCatalogs [homeCatalog, homeCatalogZh] := ⟨by decide, by decide⟩
  obtain ⟨hexclusive, -⟩ := exclusive_prune homeUsage ⟨[], []⟩ hplain
  refine ⟨hplain, by decide, ?_⟩
  rw [hexclusive]
  decide

end CatalogAudit
