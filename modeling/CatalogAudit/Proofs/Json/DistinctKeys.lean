/-
  CatalogAudit.Proofs.Json.DistinctKeys — objects that are read have distinct keys.

  A key that comes again takes the place of the one before it (`hasDistinctKeys_put`), so
  whatever a text says, no object of its value has a key twice (`hasDistinctKeys_ofText`).
-/

import CatalogAudit.Json.Reader
import CatalogAudit.Proofs.Catalog.DistinctKeys
import CatalogAudit.Proofs.Except

namespace CatalogAudit

namespace Json

/-- Whether no object of what a step reads has a key twice. -/
def ReadsDistinctKeys (item : Step Json) : Prop :=
  ∀ {cs v rest}, item cs = .ok (v, rest) → v.hasDistinctKeys = true

theorem hasDistinctKeys_readScalar {c : Char} {cs rest : List Char} {v : Json}
    (h : readScalar c cs = .ok (v, rest)) : v.hasDistinctKeys = true := by
  unfold readScalar at h
  repeat' split at h
  case isFalse => cases h
  all_goals
    obtain ⟨r, -, hr⟩ := map_eq_ok.1 h
    cases hr
    rfl

theorem hasDistinctKeys_readItemsWithin {item : Step Json} (hi : ReadsDistinctKeys item)
    {bound cs rest : List Char} {first : Bool} {vs : List Json}
    (h : readItemsWithin item bound first cs = .ok (vs, rest)) :
    itemsHaveDistinctKeys vs = true := by
  induction bound generalizing first cs vs rest with
  | nil => cases h
  | cons _ bound ih =>
    obtain ⟨⟨more, cs⟩, -, h⟩ := bind_eq_ok.1 h
    cases more with
    | false =>
      cases h
      rfl
    | true =>
      obtain ⟨⟨v, cs⟩, hv, h⟩ := bind_eq_ok.1 h
      obtain ⟨⟨vs, cs⟩, hvs, h⟩ := bind_eq_ok.1 h
      cases h
      simp [itemsHaveDistinctKeys, hi hv, ih hvs]

/-- What every member keeps, all members keep. -/
theorem readMembersWithin_invariant {σ : Type} {member : String → σ → Step σ} {P : σ → Prop}
    (hm : ∀ {key s cs s' rest}, P s → member key s cs = .ok (s', rest) → P s')
    {bound cs rest : List Char} {first : Bool} {s s' : σ} (hs : P s)
    (h : readMembersWithin member bound first s cs = .ok (s', rest)) : P s' := by
  induction bound generalizing first cs s with
  | nil => cases h
  | cons _ bound ih =>
    obtain ⟨⟨more, cs⟩, -, h⟩ := bind_eq_ok.1 h
    cases more with
    | false =>
      cases h
      exact hs
    | true =>
      obtain ⟨⟨key, cs⟩, -, h⟩ := bind_eq_ok.1 h
      obtain ⟨⟨next, cs⟩, hnext, h⟩ := bind_eq_ok.1 h
      exact ih (hm hs hnext) h

theorem hasDistinctKeys_readMembers {item : Step Json} (hi : ReadsDistinctKeys item)
    {cs rest : List Char} {ms : Members} (h : readMembers item cs = .ok (ms, rest)) :
    ms.hasDistinctKeys = true := by
  refine readMembersWithin_invariant (P := fun ms : Members => ms.hasDistinctKeys = true)
    (fun hs h => ?_) rfl h
  obtain ⟨⟨⟨⟩, cs⟩, -, h⟩ := bind_eq_ok.1 h
  obtain ⟨⟨v, cs⟩, hv, h⟩ := bind_eq_ok.1 h
  cases h
  exact Members.hasDistinctKeys_put hs (hi hv)

theorem hasDistinctKeys_readValue (depth : Nat) : ReadsDistinctKeys (readValue depth) := by
  induction depth with
  | zero =>
    intro cs v rest h
    unfold readValue at h
    split at h
    · cases h
    · split at h
      · cases h
      · exact hasDistinctKeys_readScalar h
  | succ depth ih =>
    intro cs v rest h
    unfold readValue at h
    split at h
    · cases h
    · split at h
      · obtain ⟨⟨vs, rest⟩, hvs, hr⟩ := map_eq_ok.1 h
        cases hr
        exact hasDistinctKeys_readItemsWithin ih hvs
      · split at h
        · obtain ⟨⟨ms, rest⟩, hms, hr⟩ := map_eq_ok.1 h
          cases hr
          exact hasDistinctKeys_readMembers ih hms
        · exact hasDistinctKeys_readScalar h

theorem exists_rest_of_readWhole {α : Type} {value : Step α} {text : String} {v : α}
    (h : readWhole value text = .ok v) : ∃ rest, value text.toList = .ok (v, rest) := by
  rw [readWhole, mapError_eq_ok] at h
  obtain ⟨⟨w, rest⟩, hw, h⟩ := bind_eq_ok.1 h
  obtain ⟨_, -, h⟩ := bind_eq_ok.1 h
  cases h
  exact ⟨rest, hw⟩

theorem hasDistinctKeys_ofText {text : String} {v : Json} (h : ofText text = .ok v) :
    v.hasDistinctKeys = true := by
  unfold ofText at h
  obtain ⟨rest, h⟩ := exists_rest_of_readWhole h
  exact hasDistinctKeys_readValue maxDepth h

end Json

end CatalogAudit
