/-
  CatalogAudit.Proofs.Json.Nesting — what a value that is read is like.

  No text gives a value with more containers around a part of it than the reader follows,
  with a key twice in one object, or with an integer of more than 64 bits (`Nested`). The
  reader keeps to that at every depth (`nested_readValue`), so every text does
  (`nested_ofText`).
-/

import CatalogAudit.Proofs.Except
import CatalogAudit.Proofs.Json.DistinctKeys
import CatalogAudit.Proofs.Json.Lexemes

namespace CatalogAudit

def Number.isInteger : Number → Bool
  | .int _ => true
  | .float _ => false

/-- Whether a number, when it is an integer, fits in 64 bits. -/
def Number.fits : Number → Bool
  | .int n => Json.isWord n
  | .float _ => true

mutual

/-- Whether every number at or below a value is an integer. -/
def Json.hasOnlyIntegers : Json → Bool
  | .num n => n.isInteger
  | .arr items => itemsHaveOnlyIntegers items
  | .obj ms => Members.hasOnlyIntegers ms
  | _ => true
  termination_by structural v => v

def itemsHaveOnlyIntegers : List Json → Bool
  | [] => true
  | v :: vs => v.hasOnlyIntegers && itemsHaveOnlyIntegers vs
  termination_by structural vs => vs

def Members.hasOnlyIntegers : Members → Bool
  | [] => true
  | m :: ms => memberHasOnlyIntegers m && Members.hasOnlyIntegers ms
  termination_by structural ms => ms

def memberHasOnlyIntegers : String × Json → Bool
  | (_, v) => v.hasOnlyIntegers
  termination_by structural m => m

end

theorem itemsHaveOnlyIntegers_iff {items : List Json} :
    itemsHaveOnlyIntegers items = true ↔ ∀ v ∈ items, v.hasOnlyIntegers = true := by
  induction items with
  | nil => simp [itemsHaveOnlyIntegers]
  | cons v vs ih => simp [itemsHaveOnlyIntegers, ih]

@[simp] theorem Members.hasOnlyIntegers_cons {key : String} {v : Json} {ms : Members} :
    hasOnlyIntegers ((key, v) :: ms) = true ↔
      v.hasOnlyIntegers = true ∧ ms.hasOnlyIntegers = true := by
  simp [hasOnlyIntegers, memberHasOnlyIntegers]

theorem Members.hasOnlyIntegers_iff {ms : Members} :
    ms.hasOnlyIntegers = true ↔ ∀ m ∈ ms, m.2.hasOnlyIntegers = true := by
  induction ms with
  | nil => simp [hasOnlyIntegers]
  | cons m ms ih =>
    obtain ⟨key, v⟩ := m
    simp [ih]

namespace Json

/-- A value with at most `depth` containers around any part of it. -/
inductive Nested : (depth : Nat) → Json → Prop
  | null {depth : Nat} : Nested depth .null
  | bool {depth : Nat} (b : Bool) : Nested depth (.bool b)
  | num {depth : Nat} {n : Number} (fits : n.fits = true) : Nested depth (.num n)
  | str {depth : Nat} (s : String) : Nested depth (.str s)
  | arr {depth : Nat} {items : List Json} (below : ∀ v ∈ items, Nested depth v) :
      Nested (depth + 1) (.arr items)
  | obj {depth : Nat} {ms : Members} (distinct : ms.names.Nodup)
      (below : ∀ m ∈ ms, Nested depth m.2) : Nested (depth + 1) (.obj ms)

theorem nested_obj_cons {depth : Nat} {m : String × Json} {ms : Members} :
    Nested depth (.obj (m :: ms)) ↔
      m.1 ∉ ms.names ∧ (∃ below, depth = below + 1 ∧ Nested below m.2) ∧
        Nested depth (.obj ms) := by
  constructor
  · intro h
    cases h with
    | obj distinct below =>
      obtain ⟨hm, hms⟩ := List.forall_mem_cons.1 below
      obtain ⟨hnew, hd⟩ := List.nodup_cons.1 distinct
      exact ⟨hnew, ⟨_, rfl, hm⟩, .obj hd hms⟩
  · rintro ⟨hnew, ⟨below, rfl, hm⟩, hms⟩
    cases hms with
    | obj distinct hms =>
      exact .obj (List.nodup_cons.2 ⟨hnew, distinct⟩) (List.forall_mem_cons.2 ⟨hm, hms⟩)

/-! ## Numbers that are read -/

theorem takeDigits_le {n : Nat} (hn : n ≤ wordMax) (ds : List Char) :
    (takeDigits n ds).1 ≤ wordMax := by
  induction ds generalizing n with
  | nil => exact hn
  | cons d ds ih =>
    rw [takeDigits]
    split
    · next h => exact ih h
    · exact hn

theorem fits_integer (negative : Bool) {n : Nat} (hn : n ≤ wordMax) :
    (integer negative n).fits = true := by
  rw [wordMax] at hn
  unfold integer
  split
  · exact isWord_iff.2 (by omega)
  split
  · rfl
  split
  · exact isWord_iff.2 (by omega)
  · rfl

theorem fits_finish {negative : Bool} {significand : Nat} {exponent : Int}
    {cs rest : List Char} {n : Number}
    (h : finish negative significand exponent cs = .ok (n, rest)) : n.fits = true := by
  unfold finish at h
  split at h
  · cases h
    rfl
  · cases h

theorem fits_readExponent {negative : Bool} {significand : Nat} {exponent : Int}
    {cs rest : List Char} {n : Number}
    (h : readExponent negative significand exponent cs = .ok (n, rest)) : n.fits = true := by
  unfold readExponent at h
  dsimp only at h
  split at h
  · cases h
  split at h
  · cases h
  split at h
  · exact fits_finish h
  split at h
  · cases h
  · cases h
    rfl

theorem fits_readTail {negative : Bool} {significand : Nat} {exponent : Int}
    {cs rest : List Char} {n : Number}
    (h : readTail negative significand exponent cs = .ok (n, rest)) : n.fits = true := by
  unfold readTail at h
  split at h
  · split at h
    · exact fits_readExponent h
    · exact fits_finish h
  · exact fits_finish h

theorem fits_readAfterWhole {negative : Bool} {ds cs rest : List Char} {n : Number}
    (h : readAfterWhole negative ds cs = .ok (n, rest)) : n.fits = true := by
  unfold readAfterWhole at h
  dsimp only at h
  split at h
  · unfold readFraction at h
    dsimp only at h
    split at h
    · cases h
    · exact fits_readTail h
  · split at h
    · cases h
      exact fits_integer negative (takeDigits_le (by decide) ds)
    · exact fits_readTail h

theorem fits_readDigits {negative : Bool} {cs rest : List Char} {n : Number}
    (h : readDigits negative cs = .ok (n, rest)) : n.fits = true := by
  unfold readDigits at h
  split at h
  · cases h
  split at h
  · split at h
    · cases h
    · exact fits_readAfterWhole h
  split at h
  · exact fits_readAfterWhole h
  · cases h

/-! ## Values that are read -/

theorem nested_readScalar {c : Char} {cs rest : List Char} {v : Json}
    (h : readScalar c cs = .ok (v, rest)) (depth : Nat) : Nested depth v := by
  unfold readScalar at h
  repeat' split at h
  case isFalse => cases h
  all_goals
    obtain ⟨r, hread, hr⟩ := map_eq_ok.1 h
    cases hr
    first
    | exact .null
    | exact .bool _
    | exact .str _
    | exact .num (fits_readDigits hread)

theorem nested_readItemsWithin {item : Step Json} {depth : Nat}
    (hi : ∀ {cs v rest}, item cs = .ok (v, rest) → Nested depth v)
    {bound cs rest : List Char} {first : Bool} {vs : List Json}
    (h : readItemsWithin item bound first cs = .ok (vs, rest)) : ∀ v ∈ vs, Nested depth v := by
  induction bound generalizing first cs vs rest with
  | nil => cases h
  | cons _ bound ih =>
    obtain ⟨⟨more, cs⟩, -, h⟩ := bind_eq_ok.1 h
    cases more with
    | false =>
      cases h
      exact fun _ hv => absurd hv List.not_mem_nil
    | true =>
      obtain ⟨⟨v, cs⟩, hv, h⟩ := bind_eq_ok.1 h
      obtain ⟨⟨vs, cs⟩, hvs, h⟩ := bind_eq_ok.1 h
      cases h
      exact List.forall_mem_cons.2 ⟨hi hv, ih hvs⟩

theorem nested_readMembers {item : Step Json} {depth : Nat}
    (hi : ∀ {cs v rest}, item cs = .ok (v, rest) → Nested depth v)
    {cs rest : List Char} {ms : Members} (h : readMembers item cs = .ok (ms, rest)) :
    Nested (depth + 1) (.obj ms) := by
  have hempty : Nested (depth + 1) (.obj []) := .obj .nil fun _ hm => absurd hm List.not_mem_nil
  refine readMembersWithin_invariant (P := fun ms : Members => Nested (depth + 1) (.obj ms))
    (fun hs h => ?_) hempty h
  obtain ⟨⟨⟨⟩, cs⟩, -, h⟩ := bind_eq_ok.1 h
  obtain ⟨⟨v, cs⟩, hv, h⟩ := bind_eq_ok.1 h
  cases h
  cases hs with
  | obj distinct below =>
    refine .obj (Assoc.nodup_names_put _ _ distinct) fun m hm => ?_
    rcases Assoc.mem_put hm with rfl | hm
    · exact hi hv
    · exact below m hm

theorem nested_readValue {depth : Nat} {cs rest : List Char} {v : Json}
    (h : readValue depth cs = .ok (v, rest)) : Nested depth v := by
  induction depth generalizing cs v rest with
  | zero =>
    unfold readValue at h
    split at h
    · cases h
    split at h
    · cases h
    · exact nested_readScalar h 0
  | succ depth ih =>
    unfold readValue at h
    split at h
    · cases h
    split at h
    · obtain ⟨⟨vs, rest⟩, hvs, hr⟩ := map_eq_ok.1 h
      cases hr
      exact .arr (nested_readItemsWithin ih hvs)
    split at h
    · obtain ⟨⟨ms, rest⟩, hms, hr⟩ := map_eq_ok.1 h
      cases hr
      exact nested_readMembers ih hms
    · exact nested_readScalar h (depth + 1)

theorem nested_ofText {text : String} {v : Json} (h : ofText text = .ok v) :
    Nested maxDepth v := by
  unfold ofText at h
  obtain ⟨rest, h⟩ := exists_rest_of_readWhole h
  exact nested_readValue h

end Json

end CatalogAudit
