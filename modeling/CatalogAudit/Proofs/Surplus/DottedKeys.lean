/-
  CatalogAudit.Proofs.Surplus.DottedKeys — what pruning does where keys may hold dots.

  A surplus key is the dotted key of a leaf, and it is deleted at the path of its segments.
  Where keys hold dots, or are empty, that path may lead elsewhere: to another leaf, or to a
  container full of used leaves. A leaf stays exactly when its namespace is used and no
  surplus key leads to it or to what stands above it (`leaf_stays_iff`). So a leaf with a used
  key in a used namespace may go (`used_leaf_may_go`).
-/

import CatalogAudit.Proofs.Json.DistinctKeys
import CatalogAudit.Proofs.Surplus.Pruning

namespace CatalogAudit

/-- Which leaves of a catalog stay where they are, whatever its keys. -/
theorem leaf_stays_iff (c : Catalog) (usage : Usage) (files : FileTree) :
    ∃ d, ((Surplus.ofCatalogs usage [c]).prune .remove files [c]).catalogs = [d] ∧
      d.root.leaves.Sublist c.root.leaves ∧
      ∀ leaf ∈ c.root.leaves, leaf ∈ d.root.leaves ↔
        (∃ name ∈ usage.namespaces, leaf.1.head? = some name) ∧
          ∀ key ∈ c.keys, key ∉ usage.keys → ¬ keySegments key <+: leaf.1 := by
  refine ⟨_, Surplus.catalogs_prune_ofCatalogs usage files (by simp), ?_, ?_⟩
  · rw [Catalog.leaves_prunedBy_some]
    exact List.filter_sublist
  · intro leaf hl
    obtain ⟨first, hf, rest, hr⟩ := Members.exists_cons_of_mem_leaves hl
    have hcovers : (c.surplus usage).covers leaf.1 = false ↔
        (∀ key ∈ c.keys, key ∉ usage.keys → ¬ keySegments key <+: leaf.1) ∧
          first ∈ usage.namespaces := by
      simp [LocaleSurplus.covers, Catalog.surplus, Catalog.namespaces, hr, hf, ← NameSet.has_iff]
    rw [Catalog.leaves_prunedBy_some, List.mem_filter, Bool.not_eq_true', hcovers]
    simp [hl, hr, and_comm]

/-! ## Keys that lead elsewhere -/

/-- A leaf under the dotted key `a.b`, beside the path `a`, `b`. -/
def collisionText : String :=
  "\x7b\"a\": \x7b\"b\": \x7b\"c\": \"kept\"\x7d, \"d\": \"kept\"\x7d, \"a.b\": \"stale\"\x7d"

def collisionTree : FileTree := ⟨[], [(["en.json"], .file collisionText.toUTF8)]⟩

def collisionCatalog : Catalog :=
  ⟨"en", ⟨"./en.json"⟩, [("a", .obj [("b", .obj [("c", .str "kept")]), ("d", .str "kept")]),
    ("a.b", .str "stale")], by decide⟩

def collisionUsage : Usage := ⟨.ofList ["a", "a.b"], .ofList ["a.b.c", "a.d"]⟩

theorem load_collisionTree : Catalog.load collisionTree ⟨"."⟩ "en" = .ok collisionCatalog := rfl

/-- The surplus key `a.b` does not lead to `a`, `d`. -/
theorem leaf_stays_iff_collision :
    Catalog.load collisionTree ⟨"."⟩ "en" = .ok collisionCatalog ∧
      ∃ d, ((Surplus.ofCatalogs collisionUsage [collisionCatalog]).prune .remove collisionTree
          [collisionCatalog]).catalogs = [d] ∧
        (["a", "d"], .str "kept") ∈ d.root.leaves := by
  refine ⟨load_collisionTree, ?_⟩
  obtain ⟨d, hd, -, hstays⟩ := leaf_stays_iff collisionCatalog collisionUsage collisionTree
  refine ⟨d, hd, (hstays _ (.tail _ (.head _))).2 ⟨⟨"a", ?_, rfl⟩, ?_⟩⟩
  · exact NameSet.has_iff.1 (by decide)
  · simp only [← NameSet.has_iff]
    decide

/-- A leaf that is used goes when the dotted key of another leaf leads to its container. -/
theorem used_leaf_may_go :
    ¬ ∀ (tree : FileTree) (dir : Path) (locale : String) (c : Catalog) (usage : Usage)
      (files : FileTree) (leaf : List String × Json), Catalog.load tree dir locale = .ok c →
      leaf ∈ c.root.leaves → dottedKey leaf.1 ∈ usage.keys →
      (∃ name ∈ usage.namespaces, leaf.1.head? = some name) →
      ∀ d ∈ ((Surplus.ofCatalogs usage [c]).prune .remove files [c]).catalogs,
        leaf ∈ d.root.leaves := by
  intro h
  have hgone : ∀ d ∈ ((Surplus.ofCatalogs collisionUsage [collisionCatalog]).prune .remove
      collisionTree [collisionCatalog]).catalogs,
      ["a", "b", "c"] ∉ d.root.leaves.map (·.1) := by decide
  have hstays := h collisionTree ⟨"."⟩ "en" collisionCatalog collisionUsage collisionTree
    (["a", "b", "c"], .str "kept") load_collisionTree (.head _)
    (NameSet.has_iff.1 (by decide)) ⟨"a", NameSet.has_iff.1 (by decide), rfl⟩ _ (.head _)
  exact hgone _ (.head _) (List.mem_map_of_mem hstays)

end CatalogAudit
