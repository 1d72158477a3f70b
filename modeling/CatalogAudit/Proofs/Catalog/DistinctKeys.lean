/-
  CatalogAudit.Proofs.Catalog.DistinctKeys — no operation on a catalog brings a key in twice.

  What an object has one key for stays so when a value is put under a key
  (`hasDistinctKeys_put`), when entries are taken away at the root (`hasDistinctKeys_filter`)
  or at the end of a path (`hasDistinctKeys_delete?`), and when empty containers are
  (`hasDistinctKeys_pruned`). So the invariant of a catalog goes with every catalog that is made
  from it.
-/

import CatalogAudit.Proofs.Catalog.Compact

namespace CatalogAudit.Members

variable {ms left : Members}

theorem hasDistinctKeys_put {key : String} {v : Json} (hd : ms.hasDistinctKeys = true)
    (hv : v.hasDistinctKeys = true) : hasDistinctKeys (ms.put key v) = true := by
  induction ms with
  | nil => exact hasDistinctKeys_cons.2 ⟨List.not_mem_nil, hv, rfl⟩
  | cons m ms ih =>
    obtain ⟨hk, hm, hd⟩ := hasDistinctKeys_cons.1 hd
    rw [Assoc.put]
    split
    · next e => exact hasDistinctKeys_cons.2 ⟨e ▸ hk, hv, hd⟩
    · next e =>
      refine hasDistinctKeys_cons.2 ⟨?_, hm, ih hd⟩
      rw [Assoc.names_put]
      split
      · exact hk
      · simpa [e] using hk

theorem hasDistinctKeys_filter (q : String × Json → Bool) (hd : ms.hasDistinctKeys = true) :
    hasDistinctKeys (ms.filter q) = true := by
  induction ms with
  | nil => rfl
  | cons m ms ih =>
    obtain ⟨hk, hv, hd⟩ := hasDistinctKeys_cons.1 hd
    rw [List.filter_cons]
    split
    · refine hasDistinctKeys_cons.2 ⟨fun hm => hk ?_, hv, ih hd⟩
      exact (List.filter_sublist.map _).subset hm
    · exact ih hd

theorem hasDistinctKeys_without (hd : ms.hasDistinctKeys = true) (key : String) :
    hasDistinctKeys (ms.without key) = true :=
  hasDistinctKeys_filter _ hd

/-- A container on the way to the entry is put back under its key. -/
theorem hasDistinctKeys_delete? {path : List String} (hd : ms.hasDistinctKeys = true)
    (h : ms.delete? path = some left) : left.hasDistinctKeys = true := by
  induction path generalizing ms left with
  | nil => cases h
  | cons key rest ih =>
    cases rest with
    | nil =>
      obtain ⟨-, h⟩ := Option.ite_none_right_eq_some.1 h
      cases h
      exact hasDistinctKeys_without hd key
    | cons next rest =>
      unfold delete? at h
      split at h
      · next child hchild =>
        obtain ⟨child', hdelete, rfl⟩ := Option.map_eq_some_iff.1 h
        have hd' := hasDistinctKeys_of_mem hd (Assoc.mem_of_value? hchild)
        exact hasDistinctKeys_put hd (ih hd' hdelete)
      · cases h

theorem hasDistinctKeys_deleteEach (hd : ms.hasDistinctKeys = true) (keys : List String) :
    (ms.deleteEach keys).2.hasDistinctKeys = true := by
  induction keys generalizing ms with
  | nil => exact hd
  | cons key keys ih =>
    rw [deleteEach]
    split
    · exact ih hd
    · next hdelete => exact ih (hasDistinctKeys_delete? hd hdelete)

theorem hasDistinctKeys_deleteTopEach (hd : ms.hasDistinctKeys = true) (keys : List String) :
    (ms.deleteTopEach keys).2.hasDistinctKeys = true := by
  induction keys generalizing ms with
  | nil => exact hd
  | cons key keys ih =>
    rw [deleteTopEach]
    split
    · exact ih (hasDistinctKeys_without hd key)
    · exact ih hd

theorem hasDistinctKeys_pruned (hd : ms.hasDistinctKeys = true) :
    ms.pruned.hasDistinctKeys = true := by
  induction ms using Members.induction with
  | nil => rfl
  | leaf key v ms hv ih =>
    obtain ⟨hk, hvd, hd⟩ := hasDistinctKeys_cons.1 hd
    rw [pruned_cons_leaf hv]
    exact hasDistinctKeys_cons.2 ⟨fun hm => hk ((names_pruned_sublist ms).subset hm), hvd, ih hd⟩
  | container key child ms ihc ih =>
    obtain ⟨hk, hdc, hd⟩ := hasDistinctKeys_cons.1 hd
    rw [pruned_cons_obj]
    split
    · exact ih hd
    · exact hasDistinctKeys_cons.2
        ⟨fun hm => hk ((names_pruned_sublist ms).subset hm), ihc hdc, ih hd⟩

end CatalogAudit.Members
