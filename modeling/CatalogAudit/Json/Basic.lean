/-
  CatalogAudit.Json.Basic — JSON values with the order of their members.

  An object is the list of its members, in the order in which the keys first came. In a value
  that is read no object has a key twice, in arrays either (`hasDistinctKeys`).
-/

import CatalogAudit.Assoc

namespace CatalogAudit

/-- A number is an integer, or a double given by its bits. -/
inductive Number where
  | int (n : Int)
  | float (bits : UInt64)
  deriving DecidableEq, Repr

inductive Json where
  | null
  | bool (b : Bool)
  | num (n : Number)
  | str (s : String)
  | arr (items : List Json)
  | obj (members : List (String × Json))
  deriving Repr, Inhabited

/-- The members of an object, in order. -/
abbrev Members := Assoc String Json

/-! ## Distinct keys -/

mutual

/-- Whether no object at or below a value has a key twice. -/
def Json.hasDistinctKeys : Json → Bool
  | .arr items => itemsHaveDistinctKeys items
  | .obj ms => Members.hasDistinctKeys ms
  | _ => true
  termination_by structural v => v

def itemsHaveDistinctKeys : List Json → Bool
  | [] => true
  | v :: vs => v.hasDistinctKeys && itemsHaveDistinctKeys vs
  termination_by structural vs => vs

def Members.hasDistinctKeys : Members → Bool
  | [] => true
  | m :: ms => !Assoc.has ms m.1 && memberHasDistinctKeys m && Members.hasDistinctKeys ms
  termination_by structural ms => ms

def memberHasDistinctKeys : String × Json → Bool
  | (_, v) => v.hasDistinctKeys
  termination_by structural m => m

end

namespace Members

@[simp] theorem hasDistinctKeys_cons {key : String} {v : Json} {ms : Members} :
    hasDistinctKeys ((key, v) :: ms) = true ↔
      key ∉ ms.names ∧ v.hasDistinctKeys = true ∧ ms.hasDistinctKeys = true := by
  simp [hasDistinctKeys, memberHasDistinctKeys, ← Assoc.has_iff_mem_names, and_assoc]

theorem hasDistinctKeys_of_mem {ms : Members} (hd : ms.hasDistinctKeys = true) {key : String}
    {v : Json} (hm : (key, v) ∈ ms) : v.hasDistinctKeys = true := by
  induction ms with
  | nil => cases hm
  | cons m ms ih =>
    obtain ⟨-, hv, hd⟩ := hasDistinctKeys_cons.1 hd
    rcases List.mem_cons.1 hm with rfl | hm
    · exact hv
    · exact ih hd hm

theorem nodup_names {ms : Members} (hd : ms.hasDistinctKeys = true) : ms.names.Nodup := by
  induction ms with
  | nil => exact .nil
  | cons m ms ih =>
    obtain ⟨hk, -, hd⟩ := hasDistinctKeys_cons.1 hd
    exact List.nodup_cons.2 ⟨hk, ih hd⟩

end Members

end CatalogAudit
