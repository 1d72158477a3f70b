/-
  CatalogAudit.Proofs.Surplus.Consistency — whether a check that passes still passes after
  pruning.

  The check accepts a used namespace that is any entry of the root and a used key that names
  any entry, a container too. Pruning keeps the used leaves and the entries on the way to
  them, nothing else. So a check that passes still passes exactly when, in every catalog
  with surplus, what is used leads to a used leaf (`lacksNothing_prune_iff`). A used key that
  names a container is not enough (`check_may_fail_after_prune`).
-/

import CatalogAudit.Consistency
import CatalogAudit.Proofs.Surplus.PlainKeys

namespace CatalogAudit

def Gaps.isEmpty (g : Gaps) : Bool := g.namespaces.isEmpty && g.keys.isEmpty

/-- Whether no catalog lacks a used namespace or key. -/
def Consistency.lacksNothing (r : Consistency) : Bool := r.gaps.all (·.isEmpty)

/-- Whether a path leads to a used leaf, or is that of one. -/
def Catalog.LeadsToUse (c : Catalog) (usage : Usage) (path : List String) : Prop :=
  ∃ leaf ∈ c.root.leaves, usage.usesLeaf leaf = true ∧ path <+: leaf.1

namespace Catalog

variable {c : Catalog} {usage : Usage}

theorem isEmpty_gaps_iff :
    (c.gaps usage).isEmpty = true ↔
      (∀ name ∈ usage.namespaces, c.root.hasEntry [name] = true) ∧
        ∀ key ∈ usage.keys, c.root.hasEntry (keySegments key) = true := by
  simp [Gaps.isEmpty, gaps, hasNamespace, hasKey, Members.hasEntry, List.filter_eq_nil_iff,
    NameSet.mem_toList]

/-- What is left of a catalog are the used leaves and what stands above them. -/
theorem hasEntry_prune_surplus (hp : c.root.hasPlainKeys = true) (usage : Usage)
    {path : List String} (hne : path ≠ []) :
    (c.prune (c.surplus usage)).catalog.root.hasEntry path = true ↔ c.LeadsToUse usage path := by
  rw [Members.hasEntry_iff_leaf (c.prune (c.surplus usage)).catalog.distinct
    (isCompact_prune c _) hne, leaves_prune_surplus hp]
  simp [LeadsToUse, and_assoc]

theorem isEmpty_gaps_prune_iff (hp : c.root.hasPlainKeys = true) :
    ((c.prune (c.surplus usage)).catalog.gaps usage).isEmpty = true ↔
      (∀ name ∈ usage.namespaces, c.LeadsToUse usage [name]) ∧
        ∀ key ∈ usage.keys, c.LeadsToUse usage (keySegments key) := by
  rw [isEmpty_gaps_iff]
  have hname : ∀ name, _ ↔ c.LeadsToUse usage [name] := fun name =>
    hasEntry_prune_surplus hp usage (List.cons_ne_nil name [])
  have hkey : ∀ key, _ ↔ c.LeadsToUse usage (keySegments key) := fun key =>
    hasEntry_prune_surplus hp usage (keySegments_ne_nil key)
  simp only [hname, hkey]

/-- A catalog that lacks nothing still lacks nothing after its turn when it has no surplus, and
otherwise exactly when what is used leads to used leaves. -/
theorem isEmpty_gaps_prunedBy_iff (hp : c.root.hasPlainKeys = true)
    (hpass : (c.gaps usage).isEmpty = true) :
    ((c.prunedBy (some (c.surplus usage))).catalog.gaps usage).isEmpty = true ↔
      (c.surplus usage).isEmpty = true ∨
        (∀ name ∈ usage.namespaces, c.LeadsToUse usage [name]) ∧
          ∀ key ∈ usage.keys, c.LeadsToUse usage (keySegments key) := by
  rw [prunedBy_some]
  cases he : (c.surplus usage).isEmpty with
  | true => simp [hpass]
  | false =>
    simp only [Bool.false_eq_true, if_false, false_or]
    exact isEmpty_gaps_prune_iff hp

end Catalog

/-- When pruning the surplus of a usage leaves the check of that usage passing. -/
theorem lacksNothing_prune_iff (usage : Usage) (tree : FileTree) {catalogs : List Catalog}
    (hcatalogs : PlainCatalogs catalogs)
    (hpass : (Consistency.ofCatalogs usage catalogs).lacksNothing = true) :
    (Consistency.ofCatalogs usage ((Surplus.ofCatalogs usage catalogs).prune .remove tree
        catalogs).catalogs).lacksNothing = true ↔
      ∀ c ∈ catalogs, (c.surplus usage).isEmpty = true ∨
        (∀ name ∈ usage.namespaces, c.LeadsToUse usage [name]) ∧
          ∀ key ∈ usage.keys, c.LeadsToUse usage (keySegments key) := by
  have hgaps : ∀ c ∈ catalogs, (c.gaps usage).isEmpty = true := by
    simpa [Consistency.lacksNothing, Consistency.ofCatalogs] using hpass
  rw [Surplus.catalogs_prune_ofCatalogs usage tree hcatalogs.locales]
  simp only [Consistency.lacksNothing, Consistency.ofCatalogs, List.map_map, List.all_map,
    List.all_eq_true, Function.comp_apply]
  refine forall₂_congr fun c hc => ?_
  exact Catalog.isEmpty_gaps_prunedBy_iff (hcatalogs.plainKeys c hc) (hgaps c hc)

/-- The leaf `blog.old` is surplus. -/
def blogCatalog : Catalog :=
  ⟨"en", ⟨"en.json"⟩, [("blog", .obj [("title", .str "Blog"), ("old", .str "Old")])], by decide⟩

def blogUsage : Usage := ⟨.ofList ["blog"], .ofList ["blog.title"]⟩

/-- The used leaf `blog.title` keeps its namespace. -/
theorem lacksNothing_prune_blog :
    PlainCatalogs [blogCatalog] ∧
      (Consistency.ofCatalogs blogUsage [blogCatalog]).lacksNothing = true ∧
      (blogCatalog.surplus blogUsage).isEmpty = false ∧
      (Consistency.ofCatalogs blogUsage ((Surplus.ofCatalogs blogUsage [blogCatalog]).prune .remove
        ⟨[], []⟩ [blogCatalog]).catalogs).lacksNothing = true := by
  have hplain : PlainCatalogs [blogCatalog] := ⟨by decide, by decide⟩
  have hpass : (Consistency.ofCatalogs blogUsage [blogCatalog]).lacksNothing = true := by decide
  refine ⟨hplain, hpass, by decide, ?_⟩
  refine (lacksNothing_prune_iff blogUsage ⟨[], []⟩ hplain hpass).2 ?_
  intro c hc
  rw [List.mem_singleton.1 hc]
  refine .inr ⟨fun name hn => ?_, fun key hk => ?_⟩
  · rw [List.mem_singleton.1 (NameSet.mem_ofList.1 hn)]
    exact ⟨(["blog", "title"], .str "Blog"), .head _, by decide, by decide⟩
  · rw [List.mem_singleton.1 (NameSet.mem_ofList.1 hk)]
    exact ⟨(["blog", "title"], .str "Blog"), .head _, by decide, by decide⟩

/-! ## A used container -/

def categoriesCatalog : Catalog :=
  ⟨"en", ⟨"en.json"⟩, [("blog", .obj [("categories", .obj [("news", .str "News")])])], by decide⟩

/-- The key of a container is used, but no key of a leaf in it. -/
def categoriesUsage : Usage := ⟨.ofList ["blog"], .ofList ["blog.categories"]⟩

/-- The check accepts a container as a used key, pruning takes it away with its leaves. -/
theorem check_may_fail_after_prune :
    ¬ ∀ (usage : Usage) (tree : FileTree) (catalogs : List Catalog),
      PlainCatalogs catalogs →
      (Consistency.ofCatalogs usage catalogs).lacksNothing = true →
      (Consistency.ofCatalogs usage ((Surplus.ofCatalogs usage catalogs).prune .remove tree
        catalogs).catalogs).lacksNothing = true := by
  intro h
  have hpass := h categoriesUsage ⟨[], []⟩ [categoriesCatalog]
    ⟨by decide, by decide⟩ (by decide)
  have hfails : (Consistency.ofCatalogs categoriesUsage ((Surplus.ofCatalogs categoriesUsage
      [categoriesCatalog]).prune .remove ⟨[], []⟩ [categoriesCatalog]).catalogs).lacksNothing =
        false := by decide +kernel
  rw [hfails] at hpass
  exact Bool.noConfusion hpass

end CatalogAudit
