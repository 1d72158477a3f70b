/-
  CatalogAudit.Proofs.Catalog.Compact — a catalog without its empty containers.

  `pruned` takes away no leaf (`leaves_pruned`) and leaves no container that is empty
  (`isCompact_pruned`). It adds no key (`names_pruned_sublist`).
-/

import CatalogAudit.Proofs.Catalog.Containers

namespace CatalogAudit.Members

@[simp] theorem pruned_nil : pruned [] = [] := rfl

theorem pruned_cons_leaf {key : String} {v : Json} {ms : Members} (hv : v.isContainer = false) :
    pruned ((key, v) :: ms) = (key, v) :: ms.pruned := by
  cases v with
  | obj child => cases hv
  | _ => rfl

theorem pruned_cons_obj (key : String) (child ms : Members) :
    pruned ((key, .obj child) :: ms) =
      if child.pruned = [] then ms.pruned else (key, .obj child.pruned) :: ms.pruned := by
  rw [pruned, prunedMember, Json.pruned]
  cases child.pruned <;> simp

theorem leaves_pruned (ms : Members) : ms.pruned.leaves = ms.leaves := by
  induction ms using Members.induction with
  | nil => rfl
  | leaf key v ms hv ih => rw [pruned_cons_leaf hv, leaves_cons, leaves_cons, ih]
  | container key child ms ihc ih =>
    rw [pruned_cons_obj, leaves_cons_obj, ← ihc]
    split
    · next he => simp [he, ih]
    · rw [leaves_cons_obj, ih]

theorem isCompact_pruned (ms : Members) : ms.pruned.isCompact = true := by
  induction ms using Members.induction with
  | nil => rfl
  | leaf key v ms hv ih =>
    rw [pruned_cons_leaf hv]
    refine everyEntry_cons.2 ⟨?_, ?_, ih⟩
    · cases v <;> first | rfl | cases hv
    · cases v <;> first | rfl | cases hv
  | container key child ms ihc ih =>
    rw [pruned_cons_obj]
    split
    · exact ih
    · next he => exact everyEntry_cons.2 ⟨by simpa [Json.isEmptyContainer] using he, ihc, ih⟩

theorem names_pruned_sublist (ms : Members) : ms.pruned.names.Sublist ms.names := by
  induction ms using Members.induction with
  | nil => exact List.Sublist.refl _
  | leaf key v ms hv ih =>
    rw [pruned_cons_leaf hv]
    exact ih.cons_cons key
  | container key child ms ihc ih =>
    rw [pruned_cons_obj]
    split
    · exact ih.cons key
    · exact ih.cons_cons key

end CatalogAudit.Members
