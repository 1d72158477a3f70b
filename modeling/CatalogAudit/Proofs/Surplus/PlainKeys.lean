/-
  CatalogAudit.Proofs.Surplus.PlainKeys — what pruning does where every key is plain.

  Where no key of a catalog is empty or has a dot in it, the surplus keys are the leaves that
  are not used and nothing else. So pruning leaves exactly the used leaves, and every key of
  the report is deleted (`prune_keeps_used_leaves`).
-/

import CatalogAudit.Proofs.Surplus.Pruning

namespace CatalogAudit

namespace Catalog

variable {c : Catalog} {usage : Usage}

theorem mem_keys_surplus {key : String} :
    key ∈ (c.surplus usage).keys ↔
      (∃ leaf ∈ c.root.leaves, dottedKey leaf.1 = key) ∧ key ∉ usage.keys := by
  simp [surplus, Catalog.keys, Members.leafKeys, ← NameSet.has_iff]

theorem mem_namespaces_surplus {name : String} :
    name ∈ (c.surplus usage).namespaces ↔ name ∈ c.root.names ∧ name ∉ usage.namespaces := by
  simp [surplus, Catalog.namespaces, ← NameSet.has_iff]

theorem nodup_namespaces_surplus (c : Catalog) (usage : Usage) :
    (c.surplus usage).namespaces.Nodup :=
  (Members.nodup_names c.distinct).filter _

/-- A surplus key leads to the leaf that it is the key of, and stands above no other. -/
theorem exists_surplus_key_iff (usage : Usage) (hp : c.root.hasPlainKeys = true)
    {leaf : List String × Json} (hl : leaf ∈ c.root.leaves) :
    (∃ key ∈ (c.surplus usage).keys, keySegments key <+: leaf.1) ↔
      dottedKey leaf.1 ∉ usage.keys := by
  constructor
  · rintro ⟨key, hk, hpre⟩
    obtain ⟨⟨other, ho, rfl⟩, hunused⟩ := mem_keys_surplus.1 hk
    rw [Members.keySegments_leaf hp ho] at hpre
    rwa [Members.eq_of_prefix_leaf c.distinct hl ho hpre] at hunused
  · intro hunused
    have hseg := Members.keySegments_leaf hp hl
    exact ⟨dottedKey leaf.1, mem_keys_surplus.2 ⟨⟨leaf, hl, rfl⟩, hunused⟩, [], by simp [hseg]⟩

theorem covers_surplus (hp : c.root.hasPlainKeys = true) {leaf : List String × Json}
    (hl : leaf ∈ c.root.leaves) : (c.surplus usage).covers leaf.1 = !usage.usesLeaf leaf := by
  obtain ⟨first, hf, rest, hr⟩ := Members.exists_cons_of_mem_leaves hl
  have hkeys := exists_surplus_key_iff usage hp hl
  rw [hr] at hkeys
  rw [Bool.eq_iff_iff]
  simp only [LocaleSurplus.covers, Bool.or_eq_true, List.any_eq_true, List.isPrefixOf_iff_prefix,
    hr, hkeys, Usage.usesLeaf, List.head?_cons, Option.any_some, List.contains_iff_mem,
    mem_namespaces_surplus, hf, true_and, Bool.not_eq_true', Bool.and_eq_false_iff]
  simp [← NameSet.has_iff]

theorem leaves_prune_surplus (hp : c.root.hasPlainKeys = true) (usage : Usage) :
    (c.prune (c.surplus usage)).catalog.root.leaves = c.root.leaves.filter usage.usesLeaf := by
  rw [leaves_prune]
  refine List.filter_congr fun leaf hl => ?_
  rw [covers_surplus hp hl, Bool.not_not]

theorem leaves_prunedBy_surplus (hp : c.root.hasPlainKeys = true) (usage : Usage) :
    (c.prunedBy (some (c.surplus usage))).catalog.root.leaves =
      c.root.leaves.filter usage.usesLeaf := by
  rw [leaves_prunedBy_some, ← leaves_prune, leaves_prune_surplus hp]

/-- Every surplus key is deleted: no key deleted before it touches its leaf. -/
theorem keys_prune_surplus (hp : c.root.hasPlainKeys = true) (usage : Usage) :
    (c.prune (c.surplus usage)).keys = (c.surplus usage).keys := by
  refine Members.deleted_deleteEach c.distinct (fun key hk => ?_) (List.Pairwise.filter _ ?_)
  · obtain ⟨⟨leaf, hl, rfl⟩, -⟩ := mem_keys_surplus.1 hk
    exact ⟨leaf, hl, (Members.keySegments_leaf hp hl).symm⟩
  · refine List.pairwise_map.2 ((Members.pairwise_leaves c.distinct).imp_of_mem fun hl ho h => ?_)
    rw [Members.keySegments_leaf hp hl, Members.keySegments_leaf hp ho]
    exact h.1

theorem exists_surplus_key_eq_iff (usage : Usage) (hp : c.root.hasPlainKeys = true)
    (name : String) :
    (∃ key ∈ (c.surplus usage).keys, keySegments key = [name]) ↔
      name ∈ (c.surplus usage).keys ∧ ∃ leaf ∈ c.root.leaves, leaf.1 = [name] := by
  have hname : dottedKey [name] = name := by simp [dottedKey]
  constructor
  · rintro ⟨key, hk, hs⟩
    obtain ⟨⟨leaf, hl, rfl⟩, -⟩ := mem_keys_surplus.1 hk
    rw [Members.keySegments_leaf hp hl] at hs
    rw [hs, hname] at hk
    exact ⟨hk, leaf, hl, hs⟩
  · rintro ⟨hk, leaf, hl, hs⟩
    have hseg := Members.keySegments_leaf hp hl
    rw [hs, hname] at hseg
    exact ⟨name, hk, hseg⟩

/-- The surplus namespaces that are deleted are those that were no leaf deleted before. -/
theorem namespaces_prune_surplus (hp : c.root.hasPlainKeys = true) (usage : Usage) :
    (c.prune (c.surplus usage)).namespaces = (c.surplus usage).namespaces.filter fun name =>
      !((c.surplus usage).keys.contains name && c.root.leaves.any (·.1 = [name])) := by
  rw [namespaces_prune (nodup_namespaces_surplus c usage)]
  refine List.filter_congr fun name hm => ?_
  have hname := Assoc.has_iff_mem_names.2 (mem_namespaces_surplus.1 hm).1
  have hiff := exists_surplus_key_eq_iff usage hp name
  rw [hname, Bool.true_and, List.all_eq_not_any_not]
  congr 1
  rw [Bool.eq_iff_iff]
  simpa using hiff

end Catalog

/-! ## A run over catalogs with plain keys -/

/-- Pruning the surplus of a usage turns `c` into `d` and says so in a removal: `d` keeps the
used leaves, in order, and loses every other one. -/
structure KeepsUsedLeaves (usage : Usage) (c d : Catalog) (removal : Removal) : Prop where
  locale : d.locale = c.locale
  file : d.file = c.file
  leaves : d.root.leaves = c.root.leaves.filter usage.usesLeaf
  untouched : (c.surplus usage).isEmpty = true → d = c
  compact : (c.surplus usage).isEmpty = false → d.root.isCompact = true
  keys : removal.keys = (c.surplus usage).keys
  /-- A leaf at the root that is deleted as a key is not there any more when the namespaces
  are deleted. -/
  namespaces : removal.namespaces = (c.surplus usage).namespaces.filter fun name =>
    !(removal.keys.contains name && c.root.leaves.any (·.1 = [name]))

theorem keepsUsedLeaves_prunedBy {c : Catalog} (hp : c.root.hasPlainKeys = true) (usage : Usage)
    {removal : Removal}
    (hk : removal.keys = (c.prunedBy (some (c.surplus usage))).keys)
    (hn : removal.namespaces = (c.prunedBy (some (c.surplus usage))).namespaces) :
    KeepsUsedLeaves usage c (c.prunedBy (some (c.surplus usage))).catalog removal := by
  have hleaves := Catalog.leaves_prunedBy_surplus hp usage
  rw [Catalog.prunedBy_some] at hk hn hleaves ⊢
  cases he : (c.surplus usage).isEmpty with
  | true =>
    simp only [he, if_true] at hk hn hleaves ⊢
    have hempty := he
    simp only [LocaleSurplus.isEmpty, Bool.and_eq_true, List.isEmpty_iff] at hempty
    exact ⟨rfl, rfl, hleaves, fun _ => rfl, fun h => by simp [he] at h, by rw [hk, hempty.2],
      by rw [hn, hempty.1, List.filter_nil]⟩
  | false =>
    simp only [he, Bool.false_eq_true, if_false] at hk hn hleaves ⊢
    rw [Catalog.keys_prune_surplus hp] at hk
    rw [Catalog.namespaces_prune_surplus hp, ← hk] at hn
    exact ⟨rfl, rfl, hleaves, fun h => by simp [he] at h, fun _ => Catalog.isCompact_prune c _,
      hk, hn⟩

/-- Catalogs of distinct locales, in which no key is empty or has a dot in it. -/
structure PlainCatalogs (catalogs : List Catalog) : Prop where
  locales : (catalogs.map (·.locale)).Nodup
  plainKeys : ∀ c ∈ catalogs, c.root.hasPlainKeys = true

/-- Removing the surplus of a usage keeps the used leaves of every catalog and nothing else,
and the removals list what was reported. -/
theorem prune_keeps_used_leaves (usage : Usage) (tree : FileTree) {catalogs : List Catalog}
    (hcatalogs : PlainCatalogs catalogs) :
    let result := (Surplus.ofCatalogs usage catalogs).prune .remove tree catalogs
    result.catalogs.length = catalogs.length ∧ result.removals.length = catalogs.length ∧
      ∀ (i : Nat) (c d : Catalog) (removal : Removal), catalogs[i]? = some c →
        result.catalogs[i]? = some d → result.removals[i]? = some removal →
        KeepsUsedLeaves usage c d removal := by
  intro result
  have hlocales := hcatalogs.locales
  refine ⟨?_, ?_, ?_⟩
  · have hlist := Surplus.catalogs_prune_ofCatalogs usage tree hlocales
    simpa using congrArg List.length hlist
  · have hlist := Surplus.removals_prune_ofCatalogs usage .remove tree hlocales
    simpa using congrArg List.length hlist
  · intro i c d removal hc hd hr
    have hmem := List.mem_of_getElem? hc
    obtain ⟨hkeys, hnamespaces⟩ := Surplus.removal_prune_ofCatalogs hlocales hc hr
    rw [Surplus.catalog_prune_ofCatalogs hlocales hc hd]
    exact keepsUsedLeaves_prunedBy (hcatalogs.plainKeys c hmem) usage hkeys hnamespaces

/-- A catalog with surplus of all kinds: a leaf in a used namespace, a whole namespace and a
leaf at the root. -/
def homeCatalog : Catalog :=
  ⟨"en", ⟨"en.json"⟩, [("home", .obj [("title", .str "Home"), ("stale", .str "Old")]),
    ("legacy", .obj [("banner", .str "Banner")]), ("count", .num (.int 3)),
    ("common", .obj [("save", .str "Save")])], by decide⟩

def homeUsage : Usage := ⟨.ofList ["common", "home"], .ofList ["common.save", "home.title"]⟩

/-- The root leaf `count` is deleted as a key, `legacy` as a namespace. -/
theorem prune_keeps_used_leaves_home :
    PlainCatalogs [homeCatalog] ∧
      ∃ d removal,
        ((Surplus.ofCatalogs homeUsage [homeCatalog]).prune .remove ⟨[], []⟩
          [homeCatalog]).catalogs = [d] ∧
        ((Surplus.ofCatalogs homeUsage [homeCatalog]).prune .remove ⟨[], []⟩
          [homeCatalog]).removals = [removal] ∧
        KeepsUsedLeaves homeUsage homeCatalog d removal ∧
        d.root.leaves.map (·.1) = [["home", "title"], ["common", "save"]] ∧
        removal.keys = ["home.stale", "legacy.banner", "count"] ∧
        removal.namespaces = ["legacy"] := by
  have hplain : PlainCatalogs [homeCatalog] := ⟨by decide, by decide⟩
  obtain ⟨-, -, hkeeps⟩ := prune_keeps_used_leaves homeUsage ⟨[], []⟩ hplain
  have hhome := hkeeps 0 homeCatalog _ _ rfl rfl rfl
  refine ⟨hplain, _, _, rfl, rfl, hhome, ?_, ?_, ?_⟩
  · rw [hhome.leaves]
    decide
  · rw [hhome.keys]
    decide
  · rw [hhome.namespaces, hhome.keys]
    decide

end CatalogAudit
