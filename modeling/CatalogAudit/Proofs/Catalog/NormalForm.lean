/-
  CatalogAudit.Proofs.Catalog.NormalForm — a compact catalog is determined by its leaves.

  In a compact catalog every entry holds a leaf, so the first leaf says what the first key is,
  and with distinct keys the leaves under that key end where those of the next one begin
  (`exists_cons_of_leaves_eq`). So two compact catalogs with the same leaves, in the same order,
  are the same (`eq_of_leaves_eq`).

  Taking away the empty containers leaves the leaves as they are and nothing empty. So it leads
  to the one compact catalog with these leaves (`pruned_unique`), and there it stops.
-/

import CatalogAudit.Catalog.Basic
import CatalogAudit.Proofs.Catalog.Compact
import CatalogAudit.Proofs.Catalog.EntryList

namespace CatalogAudit

/-! ## The leaves of one value -/

theorem Json.leaves_of_leaf {v : Json} (hv : v.isContainer = false) : v.leaves = [([], v)] := by
  cases v with
  | obj child => cases hv
  | _ => rfl

/-- A value that is not empty, in a compact catalog, has a leaf. -/
theorem Json.leaves_ne_nil {v : Json} (he : v.isEmptyContainer = false)
    (hc : v.everyEntry (fun _ w => !w.isEmptyContainer) = true) : v.leaves ≠ [] := by
  cases v with
  | obj child =>
    have hne : child ≠ [] := by
      intro e
      subst e
      cases he
    obtain ⟨leaf, hl⟩ := Members.exists_mem_leaves hc hne
    exact List.ne_nil_of_mem hl
  | _ => exact List.cons_ne_nil _ _

/-- The leaf of a value that is a leaf lies at the value, those of a container lie below it. -/
theorem Json.eq_of_leaves_eq {v w : Json} (hv : v.isContainer = false)
    (h : v.leaves = w.leaves) : v = w := by
  rw [leaves_of_leaf hv] at h
  cases hw : w.isContainer with
  | false =>
    rw [leaves_of_leaf hw] at h
    exact congrArg Prod.snd (List.singleton_inj.1 h)
  | true =>
    obtain ⟨child, rfl⟩ := exists_obj_of_isContainer hw
    have hleaf : ([], v) ∈ Members.leaves child := by
      show ([], v) ∈ (Json.obj child).leaves
      rw [← h]
      exact List.mem_singleton_self _
    obtain ⟨key, -, rest, hr⟩ := Members.exists_cons_of_mem_leaves hleaf
    cases hr

namespace Members

/-! ## The leaves under the first key -/

theorem head?_ne_of_mem_leaves {key : String} {ms : Members} (hk : key ∉ ms.names) :
    ∀ leaf ∈ ms.leaves, leaf.1.head? ≠ some key := by
  intro leaf hl
  exact head?_ne_of_mem_entries hk _ (mem_leaves_iff.1 hl)

/-- The first key, what is under it and what comes later can be read off the leaves. -/
theorem exists_cons_of_leaves_eq {key : String} {v : Json} {ms other : Members}
    (hd : hasDistinctKeys ((key, v) :: ms) = true) (hc : isCompact ((key, v) :: ms) = true)
    (hd' : other.hasDistinctKeys = true) (hc' : other.isCompact = true)
    (h : leaves ((key, v) :: ms) = other.leaves) :
    ∃ (w : Json) (ms' : Members),
      other = (key, w) :: ms' ∧ v.leaves = w.leaves ∧ ms.leaves = ms'.leaves := by
  obtain ⟨hk, -, -⟩ := hasDistinctKeys_cons.1 hd
  obtain ⟨hv, hcv, -⟩ := everyEntry_cons.1 hc
  rw [Bool.not_eq_true'] at hv
  obtain ⟨first, more, hfirst⟩ := List.exists_cons_of_ne_nil (Json.leaves_ne_nil hv hcv)
  cases other with
  | nil => simp [leaves_cons, hfirst] at h
  | cons m ms' =>
    obtain ⟨key', w⟩ := m
    obtain ⟨hk', -, -⟩ := hasDistinctKeys_cons.1 hd'
    obtain ⟨hw, hcw, -⟩ := everyEntry_cons.1 hc'
    rw [Bool.not_eq_true'] at hw
    obtain ⟨first', more', hfirst'⟩ := List.exists_cons_of_ne_nil (Json.leaves_ne_nil hw hcw)
    have hkey : key = key' := by
      rw [leaves_cons, leaves_cons, hfirst, hfirst'] at h
      exact (List.cons.inj (congrArg Prod.fst (List.cons.inj h).1)).1
    subst hkey
    rw [leaves_cons, leaves_cons] at h
    exact ⟨w, ms', rfl,
      under_append_inj (head?_ne_of_mem_leaves hk) (head?_ne_of_mem_leaves hk') h⟩

/-- Compact catalogs with the same leaves are the same. -/
theorem eq_of_leaves_eq {ms other : Members} (hd : ms.hasDistinctKeys = true)
    (hc : ms.isCompact = true) (hd' : other.hasDistinctKeys = true)
    (hc' : other.isCompact = true) (h : ms.leaves = other.leaves) : ms = other := by
  induction ms using Members.induction generalizing other with
  | nil =>
    cases other with
    | nil => rfl
    | cons m ms' =>
      obtain ⟨leaf, hl⟩ := exists_mem_leaves hc' (List.cons_ne_nil m ms')
      rw [← h] at hl
      cases hl
  | leaf key v ms hv ih =>
    obtain ⟨w, ms', rfl, hvw, hlater⟩ := exists_cons_of_leaves_eq hd hc hd' hc' h
    obtain ⟨-, -, hd⟩ := hasDistinctKeys_cons.1 hd
    obtain ⟨-, -, hd'⟩ := hasDistinctKeys_cons.1 hd'
    obtain ⟨-, -, hc⟩ := everyEntry_cons.1 hc
    obtain ⟨-, -, hc'⟩ := everyEntry_cons.1 hc'
    rw [ih hd hc hd' hc' hlater, Json.eq_of_leaves_eq hv hvw]
  | container key child ms ihc ih =>
    obtain ⟨w, ms', rfl, hvw, hlater⟩ := exists_cons_of_leaves_eq hd hc hd' hc' h
    obtain ⟨-, hdv, hd⟩ := hasDistinctKeys_cons.1 hd
    obtain ⟨-, hdw, hd'⟩ := hasDistinctKeys_cons.1 hd'
    obtain ⟨-, hcv, hc⟩ := everyEntry_cons.1 hc
    obtain ⟨-, hcw, hc'⟩ := everyEntry_cons.1 hc'
    rw [ih hd hc hd' hc' hlater]
    cases hw : w.isContainer with
    | false =>
      rw [Json.eq_of_leaves_eq hw hvw.symm]
    | true =>
      obtain ⟨child', rfl⟩ := Json.exists_obj_of_isContainer hw
      rw [ihc hdv hcv hdw hcw hvw]

/-- In a compact catalog there is nothing to take away. -/
theorem pruned_of_isCompact {ms : Members} (hd : ms.hasDistinctKeys = true)
    (hc : ms.isCompact = true) : ms.pruned = ms :=
  eq_of_leaves_eq (hasDistinctKeys_pruned hd) (isCompact_pruned ms) hd hc (leaves_pruned ms)

end Members

/-! ## The one compact catalog -/

/-- Taking away the empty containers leads to the one compact catalog that has the same leaves.
So it changes neither the keys of the leaves nor a catalog that is compact already. -/
theorem Catalog.pruned_unique (c : Catalog) :
    (∀ root : Members, root = c.pruned.root ↔
      root.hasDistinctKeys = true ∧ root.isCompact = true ∧ root.leaves = c.root.leaves) ∧
      c.pruned.pruned = c.pruned ∧ c.pruned.keys = c.keys ∧
      (c.root.isCompact = true → c.pruned = c) := by
  have hdistinct : c.pruned.root.hasDistinctKeys = true := c.pruned.distinct
  have hcompact : c.pruned.root.isCompact = true := Members.isCompact_pruned c.root
  have hleaves : c.pruned.root.leaves = c.root.leaves := Members.leaves_pruned c.root
  refine ⟨fun root => ⟨?_, ?_⟩, ?_, ?_, ?_⟩
  · intro hroot
    subst hroot
    exact ⟨hdistinct, hcompact, hleaves⟩
  · intro h
    obtain ⟨hrd, hrc, hrl⟩ := h
    exact Members.eq_of_leaves_eq hrd hrc hdistinct hcompact (hrl.trans hleaves.symm)
  · exact Catalog.ext rfl rfl (Members.pruned_of_isCompact hdistinct hcompact)
  · show c.pruned.root.leafKeys = c.root.leafKeys
    rw [Members.leafKeys, Members.leafKeys, hleaves]
  · intro hc
    exact Catalog.ext rfl rfl (Members.pruned_of_isCompact c.distinct hc)

/-- Containers within containers without a leaf, beside an array that holds an empty object. -/
def hollowCatalog : Catalog :=
  ⟨"en", ⟨"en.json"⟩, [("a", .obj [("b", .obj [("c", .obj [])]), ("d", .str "kept")]),
    ("", .obj [("e", .obj [])]), ("a.b", .arr [.obj []]), ("n", .null)], by decide⟩

theorem Catalog.pruned_unique_hollow :
    hollowCatalog.root.isCompact = false ∧
      hollowCatalog.pruned.root =
        [("a", .obj [("d", .str "kept")]), ("a.b", .arr [.obj []]), ("n", .null)] := by
  obtain ⟨hunique, -⟩ := Catalog.pruned_unique hollowCatalog
  refine ⟨by decide, ?_⟩
  symm
  rw [hunique]
  exact ⟨by decide, by decide, rfl⟩

end CatalogAudit
