/-
  CatalogAudit.Proofs.Surplus.FoundKeys — what pruning does to the keys that the sources use.

  Every key that is found lies in a namespace that was found, whether a catalog has the key or
  not (`Scan.exists_namespace_of_mem_usageOf`). Pruning keeps its leaf exactly when one of these
  is a namespace at the root of a catalog, so one without a dot (`found_leaf_stays_iff`). A file
  may bind a nested namespace and no other; the keys found through it go with the entry at the
  root that they lie in (`found_leaf_may_go`).
-/

import CatalogAudit.Proofs.Catalog.DottedKey
import CatalogAudit.Proofs.Scan.Namespaces
import CatalogAudit.Proofs.Surplus.PlainKeys

namespace CatalogAudit

open Source

/-- What source files use together, each given by its path and its text. -/
def Scan.usageOf (rules : ScanRules) (sources : List (Path × String)) : Usage :=
  Usage.ofFiles (sources.map fun source => scanText rules source.1 source.2)

theorem Scan.exists_namespace_of_mem_usageOf {rules : ScanRules} {sources : List (Path × String)}
    {key : String} (hk : key ∈ (usageOf rules sources).keys) :
    ∃ nspace ∈ (usageOf rules sources).namespaces, ∃ rest, key = fullKey nspace rest := by
  refine Usage.exists_namespace_of_mem_keys (fun file hf => ?_) hk
  obtain ⟨source, -, rfl⟩ := List.mem_map.1 hf
  exact Scan.rooted_scanText rules source.1 source.2

theorem keySegments_fullKey (nspace key : String) :
    keySegments (fullKey nspace key) = keySegments nspace ++ keySegments key :=
  keySegments_append nspace key

/-- A key of two segments or more lies in the namespace of its first one. -/
theorem eq_fullKey_of_keySegments {key first next : String} {rest : List String}
    (h : keySegments key = first :: next :: rest) :
    key = fullKey first (Text.joined "." (next :: rest)) := by
  rw [← joined_keySegments key, h, Text.joined_cons_cons]
  rfl

/-- A leaf with a found key lies in a used namespace of the root exactly when its key lies in
a used namespace without a dot. -/
theorem Members.head_mem_namespaces_iff {ms : Members} (hp : ms.hasPlainKeys = true)
    {leaf : List String × Json} (hl : leaf ∈ ms.leaves) {usage : Usage} {nspace rest : String}
    (hkey : dottedKey leaf.1 = fullKey nspace rest) :
    leaf.1.head?.any usage.namespaces.has = true ↔
      ∃ name ∈ usage.namespaces, '.' ∉ name.toList ∧
        ∃ rest, dottedKey leaf.1 = fullKey name rest := by
  have hseg := Members.keySegments_leaf hp hl
  constructor
  · intro hused
    have hlength : 2 ≤ leaf.1.length := by
      have hn := List.length_pos_iff.2 (keySegments_ne_nil nspace)
      have hr := List.length_pos_iff.2 (keySegments_ne_nil rest)
      rw [← hseg, hkey, keySegments_fullKey, List.length_append]
      omega
    match hpath : leaf.1, hlength with
    | first :: next :: more, _ =>
      rw [hpath] at hused hseg
      refine ⟨first, NameSet.has_iff.1 hused, ?_, _, eq_fullKey_of_keySegments hseg⟩
      exact (isPlainKey_iff.1 (Members.isPlainKey_of_mem_leaf hp hl first (by simp [hpath]))).2
  · rintro ⟨name, hn, hdot, more, hname⟩
    rw [← hseg, hname, keySegments_fullKey, keySegments_of_noDot hdot]
    exact NameSet.has_iff.2 hn

/-- The keys that the sources use lie in namespaces that they use, and what becomes of the leaves
with such a key. -/
theorem found_leaf_stays_iff (rules : ScanRules) (sources : List (Path × String))
    (tree : FileTree) {catalogs : List Catalog} (hcatalogs : PlainCatalogs catalogs) :
    let usage := Scan.usageOf rules sources
    let result := (Surplus.ofCatalogs usage catalogs).prune .remove tree catalogs
    (∀ key ∈ usage.keys, ∃ nspace ∈ usage.namespaces, ∃ rest, key = fullKey nspace rest) ∧
      result.catalogs.length = catalogs.length ∧
      ∀ (i : Nat) (c d : Catalog), catalogs[i]? = some c → result.catalogs[i]? = some d →
        ∀ leaf ∈ c.root.leaves, dottedKey leaf.1 ∈ usage.keys →
          (leaf ∈ d.root.leaves ↔ ∃ nspace ∈ usage.namespaces, '.' ∉ nspace.toList ∧
            ∃ rest, dottedKey leaf.1 = fullKey nspace rest) := by
  intro usage result
  refine ⟨fun key hk => Scan.exists_namespace_of_mem_usageOf hk, ?_, ?_⟩
  · have hlist := Surplus.catalogs_prune_ofCatalogs usage tree hcatalogs.locales
    simpa using congrArg List.length hlist
  · intro i c d hc hd leaf hl hused
    have hmem := List.mem_of_getElem? hc
    have hplain := hcatalogs.plainKeys c hmem
    obtain ⟨nspace, -, rest, hkey⟩ := Scan.exists_namespace_of_mem_usageOf hused
    rw [Surplus.catalog_prune_ofCatalogs hcatalogs.locales hc hd,
      Catalog.leaves_prunedBy_surplus hplain, List.mem_filter,
      Usage.usesLeaf, NameSet.has_iff.2 hused, Bool.true_and,
      Members.head_mem_namespaces_iff hplain hl hkey]
    exact and_iff_right hl

/-! ## A nested namespace -/

def footerRules : ScanRules := ⟨[], [], [], "app"⟩

/-- A source that binds a nested namespace. -/
def footerSource : Path × String :=
  (⟨"src/footer.ts"⟩, "const t = useTranslations('common.footer');\nt('copyright');\n")

/-- A source that binds the namespace around it. -/
def headerSource : Path × String :=
  (⟨"src/header.ts"⟩, "const t = useTranslations('common');\nt('title');\n")

def footerCatalog : Catalog :=
  ⟨"en", ⟨"messages/en.json"⟩, [("common", .obj [("footer", .obj [("copyright", .str "(c)")])])],
    by decide⟩

def footerLeaf : List String × Json := (["common", "footer", "copyright"], .str "(c)")

theorem mem_leaves_footerCatalog : footerLeaf ∈ footerCatalog.root.leaves := .head _

theorem usageOf_footer : Scan.usageOf footerRules [footerSource] =
    ⟨.ofList ["common.footer"], .ofList ["common.footer.copyright"]⟩ := by decide +kernel

theorem usageOf_footer_header : Scan.usageOf footerRules [footerSource, headerSource] =
    ⟨.ofList ["common", "common.footer"], .ofList ["common.footer.copyright", "common.title"]⟩ := by
  decide +kernel

/-- Where another file binds the namespace at the root, the leaf stays. -/
theorem found_leaf_stays_beside_header :
    PlainCatalogs [footerCatalog] ∧
      ∃ d, ((Surplus.ofCatalogs (Scan.usageOf footerRules [footerSource, headerSource])
          [footerCatalog]).prune .remove ⟨[], []⟩ [footerCatalog]).catalogs[0]? = some d ∧
        footerLeaf ∈ d.root.leaves := by
  have hplain : PlainCatalogs [footerCatalog] := ⟨by decide, by decide⟩
  obtain ⟨-, hlength, hstays⟩ := found_leaf_stays_iff footerRules [footerSource, headerSource]
    ⟨[], []⟩ hplain
  rw [usageOf_footer_header] at hlength hstays ⊢
  have hd := List.getElem?_eq_getElem (Nat.lt_of_lt_of_eq Nat.zero_lt_one hlength.symm)
  have hiff := hstays 0 _ _ rfl hd footerLeaf mem_leaves_footerCatalog
    (NameSet.has_iff.1 (by decide))
  refine ⟨hplain, _, hd, hiff.2 ⟨"common", ?_, by decide, ?_⟩⟩
  · exact NameSet.has_iff.1 (by decide)
  · exact ⟨"footer.copyright", by decide⟩

/-- A leaf whose key was found goes when no file binds a namespace of the root for it. -/
theorem found_leaf_may_go :
    ¬ ∀ (rules : ScanRules) (sources : List (Path × String)) (tree : FileTree)
      (catalogs : List Catalog), PlainCatalogs catalogs →
      ∀ (i : Nat) (c d : Catalog), catalogs[i]? = some c →
        ((Surplus.ofCatalogs (Scan.usageOf rules sources) catalogs).prune .remove tree
          catalogs).catalogs[i]? = some d →
        ∀ leaf ∈ c.root.leaves, dottedKey leaf.1 ∈ (Scan.usageOf rules sources).keys →
          leaf ∈ d.root.leaves := by
  intro h
  have hstays := h footerRules [footerSource] ⟨[], []⟩ [footerCatalog]
    ⟨by decide, by decide⟩ 0 footerCatalog
  rw [usageOf_footer] at hstays
  have hleft := hstays _ rfl rfl footerLeaf mem_leaves_footerCatalog
    (NameSet.has_iff.1 (by decide))
  exact absurd (List.mem_map_of_mem (f := (·.1)) hleft) (by decide)

end CatalogAudit
