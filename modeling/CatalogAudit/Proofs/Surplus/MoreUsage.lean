/-
  CatalogAudit.Proofs.Surplus.MoreUsage — what a larger usage does to pruning.

  What a larger usage leaves unused is part of what the smaller one does (`keys_surplus_subset`,
  `namespaces_surplus_subset`), so its surplus covers fewer paths (`covers_surplus_antitone`).
  A deletion takes away whatever its key leads to, be it another leaf or a container, but that is
  the same on both sides: which leaves go is decided by the paths that are covered and by nothing
  that the other deletions do. So pruning by the larger usage keeps all that pruning by the smaller
  one does (`more_usage_keeps_more`).
-/

import CatalogAudit.Proofs.Surplus.PlainKeys

namespace CatalogAudit

/-- Whether all that a usage holds is also in another one. -/
structure Usage.Within (usage more : Usage) : Prop where
  namespaces : ∀ name ∈ usage.namespaces, name ∈ more.namespaces
  keys : ∀ key ∈ usage.keys, key ∈ more.keys

namespace Catalog

variable {c : Catalog} {usage more : Usage}

theorem keys_surplus_subset (h : usage.Within more) {key : String}
    (hk : key ∈ (c.surplus more).keys) : key ∈ (c.surplus usage).keys := by
  obtain ⟨hleaf, hunused⟩ := mem_keys_surplus.1 hk
  exact mem_keys_surplus.2 ⟨hleaf, fun hused => hunused (h.keys key hused)⟩

theorem namespaces_surplus_subset (h : usage.Within more) {name : String}
    (hn : name ∈ (c.surplus more).namespaces) : name ∈ (c.surplus usage).namespaces := by
  obtain ⟨hname, hunused⟩ := mem_namespaces_surplus.1 hn
  exact mem_namespaces_surplus.2 ⟨hname, fun hused => hunused (h.namespaces name hused)⟩

/-- What the surplus of the larger usage covers, that of the smaller one covers too. -/
theorem covers_surplus_antitone (h : usage.Within more) {path : List String}
    (hc : (c.surplus more).covers path = true) : (c.surplus usage).covers path = true := by
  rw [LocaleSurplus.covers, Bool.or_eq_true] at hc ⊢
  rcases hc with hkey | hname
  · left
    obtain ⟨key, hk, hp⟩ := List.any_eq_true.1 hkey
    exact List.any_eq_true.2 ⟨key, keys_surplus_subset h hk, hp⟩
  · right
    obtain ⟨name, hfirst, hn⟩ := (Option.any_eq_true _ _).1 hname
    rw [List.contains_iff_mem] at hn
    exact (Option.any_eq_true _ _).2
      ⟨name, hfirst, List.contains_iff_mem.2 (namespaces_surplus_subset h hn)⟩

theorem leaves_prunedBy_surplus_sublist (c : Catalog) (h : usage.Within more) :
    (c.prunedBy (some (c.surplus usage))).catalog.root.leaves.Sublist
      (c.prunedBy (some (c.surplus more))).catalog.root.leaves := by
  rw [leaves_prunedBy_some, leaves_prunedBy_some]
  -- what the smaller usage keeps is a part of what the larger one keeps
  have hkept : (c.root.leaves.filter fun leaf => !(c.surplus usage).covers leaf.1) =
      (c.root.leaves.filter fun leaf => !(c.surplus more).covers leaf.1).filter
        fun leaf => !(c.surplus usage).covers leaf.1 := by
    rw [List.filter_filter]
    refine List.filter_congr fun leaf _ => ?_
    cases hmore : (c.surplus more).covers leaf.1 with
    | false => simp
    | true => simp [covers_surplus_antitone h hmore]
  rw [hkept]
  exact List.filter_sublist

end Catalog

/-- When more is found to be used, pruning keeps every leaf that it kept before, and their order,
whatever the keys of the catalogs look like. -/
theorem more_usage_keeps_more {usage more : Usage} (h : usage.Within more) (tree tree' : FileTree)
    {catalogs : List Catalog} (hn : (catalogs.map (·.locale)).Nodup) :
    let fewer := ((Surplus.ofCatalogs usage catalogs).prune .remove tree catalogs).catalogs
    let kept := ((Surplus.ofCatalogs more catalogs).prune .remove tree' catalogs).catalogs
    fewer.length = catalogs.length ∧ kept.length = catalogs.length ∧
      ∀ (i : Nat) (c d e : Catalog), catalogs[i]? = some c → fewer[i]? = some d →
        kept[i]? = some e →
        d.locale = c.locale ∧ e.locale = c.locale ∧ d.root.leaves.Sublist e.root.leaves := by
  intro fewer kept
  refine ⟨Surplus.length_catalogs_prune _ tree catalogs,
    Surplus.length_catalogs_prune _ tree' catalogs, ?_⟩
  intro i c d e hc hfewer hkept
  rw [Surplus.catalog_prune_ofCatalogs hn hc hfewer, Surplus.catalog_prune_ofCatalogs hn hc hkept]
  exact ⟨Catalog.locale_prunedBy c _, Catalog.locale_prunedBy c _,
    Catalog.leaves_prunedBy_surplus_sublist c h⟩

/-- Two leaves of the dotted key `cart.title`, one of them at the root, and an empty key. -/
def cartCatalog : Catalog :=
  ⟨"en", ⟨"en.json"⟩, [("cart", .obj [("title", .str "Cart"), ("", .obj [("x", .str "X")])]),
    ("cart.title", .str "Cart"), ("old", .obj [("y", .null)])], by decide⟩

def cartCatalogZh : Catalog :=
  ⟨"zh", ⟨"zh.json"⟩, [("old", .obj [("y", .str "旧")])], by decide⟩

def cartUsage : Usage := ⟨.ofList ["cart"], .ofList ["cart.title"]⟩

def cartUsageMore : Usage :=
  ⟨.ofList ["cart", "cart.title", "old"], .ofList ["cart.title", "old.y"]⟩

theorem more_usage_keeps_more_cart :
    let catalogs := [cartCatalog, cartCatalogZh]
    cartUsage.Within cartUsageMore ∧ (catalogs.map (·.locale)).Nodup ∧
      ∃ d e,
        ((Surplus.ofCatalogs cartUsage catalogs).prune .remove ⟨[], []⟩ catalogs).catalogs[0]? =
          some d ∧
        ((Surplus.ofCatalogs cartUsageMore catalogs).prune .remove ⟨[], []⟩
          catalogs).catalogs[0]? = some e ∧
        d.root.leaves.Sublist e.root.leaves ∧
        d.root.leaves.map (·.1) = [["cart", "title"]] ∧
        e.root.leaves.map (·.1) = [["cart", "title"], ["cart.title"], ["old", "y"]] := by
  intro catalogs
  have hwithin : cartUsage.Within cartUsageMore := by
    refine ⟨fun name hn => ?_, fun key hk => ?_⟩
    · rw [List.mem_singleton.1 (NameSet.mem_ofList.1 hn)]
      exact NameSet.has_iff.1 (by decide)
    · rw [List.mem_singleton.1 (NameSet.mem_ofList.1 hk)]
      exact NameSet.has_iff.1 (by decide)
  have hn : (catalogs.map (·.locale)).Nodup := by decide
  obtain ⟨hfewer, hkept, hsublist⟩ := more_usage_keeps_more hwithin ⟨[], []⟩ ⟨[], []⟩ hn
  have hd0 := List.getElem?_eq_getElem (Nat.lt_of_lt_of_eq Nat.zero_lt_two hfewer.symm)
  have he0 := List.getElem?_eq_getElem (Nat.lt_of_lt_of_eq Nat.zero_lt_two hkept.symm)
  obtain ⟨-, -, hleaves⟩ := hsublist 0 cartCatalog _ _ rfl hd0 he0
  refine ⟨hwithin, hn, _, _, hd0, he0, hleaves, ?_, ?_⟩
  · rw [Surplus.catalog_prune_ofCatalogs hn (c := cartCatalog) rfl hd0,
      Catalog.leaves_prunedBy_some]
    decide
  · rw [Surplus.catalog_prune_ofCatalogs hn (c := cartCatalog) rfl he0,
      Catalog.leaves_prunedBy_some]
    decide

end CatalogAudit
