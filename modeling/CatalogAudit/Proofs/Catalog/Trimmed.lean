/-
  CatalogAudit.Proofs.Catalog.Trimmed — what pruning leaves was there before.

  `Trimmed left ms` says that `left` is `ms` without some of its entries, at any depth and in
  the same order. Deleting an entry trims, so does taking away those of the root or the empty
  containers, and hence so does pruning (`trimmed_prune`). What holds of every part of a
  catalog holds of a trimmed one: its depth (`Trimmed.nested`) and that its numbers are integers
  (`Trimmed.hasOnlyIntegers`). So what is left of a catalog that was read from a text reads back
  from the text that is written for it (`rootOfText_trimmed`).
-/

import CatalogAudit.Proofs.Json.ReadBack
import CatalogAudit.Proofs.Surplus.Pruning

namespace CatalogAudit

namespace Members

/-- The members `left` are `ms` without some of the entries. -/
inductive Trimmed : (left ms : Members) → Prop
  | nil : Trimmed [] []
  | dropped {left ms : Members} (m : String × Json) : Trimmed left ms → Trimmed left (m :: ms)
  | kept {left ms : Members} (m : String × Json) :
      Trimmed left ms → Trimmed (m :: left) (m :: ms)
  | inside {below child left ms : Members} (key : String) : Trimmed below child →
      Trimmed left ms → Trimmed ((key, .obj below) :: left) ((key, .obj child) :: ms)

/-! ## What trims -/

theorem Trimmed.refl (ms : Members) : Trimmed ms ms := by
  induction ms with
  | nil => exact .nil
  | cons m ms ih => exact .kept m ih

theorem Trimmed.trans {least left ms : Members} (h : Trimmed least left) (h' : Trimmed left ms) :
    Trimmed least ms := by
  induction h' generalizing least with
  | nil => exact h
  | dropped m _ ih => exact .dropped m (ih h)
  | kept m _ ih =>
    cases h with
    | dropped _ h => exact .dropped m (ih h)
    | kept _ h => exact .kept m (ih h)
    | inside key hbelow h => exact .inside key hbelow (ih h)
  | inside key hbelow _ ihbelow ih =>
    cases h with
    | dropped _ h => exact .dropped _ (ih h)
    | kept _ h => exact .inside key hbelow (ih h)
    | inside _ hleast h => exact .inside key (ihbelow hleast) (ih h)

theorem Deletes.trimmed {path : List String} {ms left : Members} (h : Deletes path ms left) :
    Trimmed left ms := by
  induction h with
  | here _ => exact .dropped _ (.refl _)
  | inside _ _ ih => exact .inside _ ih (.refl _)
  | later _ _ ih => exact .kept _ ih

theorem trimmed_deleteEach {ms : Members} (hd : ms.hasDistinctKeys = true) (keys : List String) :
    Trimmed (ms.deleteEach keys).2 ms :=
  deleteEach_induction (motive := fun ms _ result => Trimmed result.2 ms)
    (fun ms _ => .refl ms) (fun _ _ _ _ _ ih => ih) (fun _ _ _ _ _ hdel ih => ih.trans hdel.trimmed)
    ms keys hd

theorem trimmed_filter (q : String × Json → Bool) (ms : Members) : Trimmed (ms.filter q) ms := by
  induction ms with
  | nil => exact .nil
  | cons m ms ih =>
    rw [List.filter_cons]
    split
    · exact .kept m ih
    · exact .dropped m ih

theorem trimmed_pruned (ms : Members) : Trimmed ms.pruned ms := by
  induction ms using Members.induction with
  | nil => exact .nil
  | leaf key v ms hv ih =>
    rw [pruned_cons_leaf hv]
    exact .kept _ ih
  | container key child ms ihc ih =>
    rw [pruned_cons_obj]
    split
    · exact .dropped _ ih
    · exact .inside key ihc ih

/-! ## What a trimmed catalog keeps -/

theorem Trimmed.names_sublist {left ms : Members} (h : Trimmed left ms) :
    left.names.Sublist ms.names := by
  induction h with
  | nil => exact .slnil
  | dropped m _ ih => exact ih.cons m.1
  | kept m _ ih => exact ih.cons_cons m.1
  | inside key _ _ _ ih => exact ih.cons_cons key

theorem Trimmed.nested {left ms : Members} (h : Trimmed left ms) {depth : Nat}
    (hms : Json.Nested depth (.obj ms)) : Json.Nested depth (.obj left) := by
  induction h generalizing depth with
  | nil => exact hms
  | dropped m _ ih => exact ih (Json.nested_obj_cons.1 hms).2.2
  | kept m h ih =>
    obtain ⟨hnew, hm, hms⟩ := Json.nested_obj_cons.1 hms
    exact Json.nested_obj_cons.2 ⟨fun hk => hnew (h.names_sublist.subset hk), hm, ih hms⟩
  | inside key _ h ihbelow ih =>
    obtain ⟨hnew, ⟨below, hdepth, hchild⟩, hms⟩ := Json.nested_obj_cons.1 hms
    exact Json.nested_obj_cons.2 ⟨fun hk => hnew (h.names_sublist.subset hk),
      ⟨below, hdepth, ihbelow hchild⟩, ih hms⟩

theorem Trimmed.hasOnlyIntegers {left ms : Members} (h : Trimmed left ms)
    (hms : ms.hasOnlyIntegers = true) : left.hasOnlyIntegers = true := by
  induction h with
  | nil => rfl
  | dropped m _ ih => exact ih (hasOnlyIntegers_cons.1 hms).2
  | kept m _ ih =>
    obtain ⟨hm, hms⟩ := hasOnlyIntegers_cons.1 hms
    exact hasOnlyIntegers_cons.2 ⟨hm, ih hms⟩
  | inside key _ _ ihbelow ih =>
    obtain ⟨hchild, hms⟩ := hasOnlyIntegers_cons.1 hms
    exact hasOnlyIntegers_cons.2 ⟨ihbelow hchild, ih hms⟩

end Members

theorem Catalog.trimmed_prune (c : Catalog) (s : LocaleSurplus) :
    Members.Trimmed (c.prune s).catalog.root c.root := by
  rw [root_prune, Members.left_deleteTopEach]
  exact ((Members.trimmed_pruned _).trans (Members.trimmed_filter _ _)).trans
    (Members.trimmed_deleteEach c.distinct s.keys)

/-- What is left of entries that were read from a text reads back from a text of its own. -/
theorem Catalog.rootOfText_trimmed {c : Catalog} {text : String} {root : Members}
    (hread : rootOfText text = .ok root) (h : Members.Trimmed c.root root)
    (hn : c.root.hasOnlyIntegers = true) :
    rootOfText c.text = .ok c.root := by
  have hnested := Json.nested_ofText (ofText_of_rootOfText hread)
  exact rootOfText_text (h.nested hnested) hn

end CatalogAudit
