/-
  CatalogAudit.Proofs.Text.Bytes — texts and their bytes.

  The bytes of a text are read as that text and no other (`ofBytes?_eq_some_iff`). A byte that
  is a dot stands for a dot and is part of no other character (`dot_mem_encoded_iff`), so names
  are cut at the same dots as texts and as bytes.

  Texts are compared character by character. In UTF-8 the bytes of a smaller character come
  before those of a larger one whatever follows (`utf8EncodeChar_append_lt`), so to compare the
  bytes of two texts is to compare the texts (`bytes_lt_bytes_iff`).
-/

import CatalogAudit.Text.Basic
import Mathlib.Data.List.TakeWhile

namespace CatalogAudit.Text

theorem bytes_eq (s : String) : bytes s = s.toList.flatMap String.utf8EncodeChar := by
  have hbytes : s.toByteArray = s.toList.utf8Encode := by
    rw [← String.toByteArray_ofList, String.ofList_toList]
  rw [bytes, String.toUTF8_eq_toByteArray, hbytes, List.utf8Encode]
  simp

theorem bytes_append (s t : String) : bytes (s ++ t) = bytes s ++ bytes t := by
  rw [bytes_eq, bytes_eq, bytes_eq, String.toList_append, List.flatMap_append]

/-! ## Reading bytes -/

theorem fromUTF8?_toUTF8 (text : String) : String.fromUTF8? text.toUTF8 = some text := by
  simp only [String.fromUTF8?, String.toUTF8_eq_toByteArray, dif_pos text.isValidUTF8]
  rfl

theorem ofBytes?_bytes (s : String) : ofBytes? (bytes s) = some s := by
  rw [ofBytes?, bytes, Array.toArray_toList]
  exact fromUTF8?_toUTF8 s

theorem ofBytes?_eq_some_iff {bs : List UInt8} {s : String} :
    ofBytes? bs = some s ↔ bs = bytes s := by
  constructor
  · intro h
    unfold ofBytes? String.fromUTF8? at h
    split at h
    · have htext := Option.some.inj h
      rw [bytes, ← htext]
      rfl
    · cases h
  · rintro rfl
    exact ofBytes?_bytes s

/-! ## Dots -/

theorem dot_mem_utf8EncodeChar_iff {c : Char} :
    '.'.toUInt8 ∈ String.utf8EncodeChar c ↔ c = '.' := by
  constructor
  · intro h
    have hvalue : c.val.toNat = 46 := by
      unfold String.utf8EncodeChar at h
      have hdot : '.'.toUInt8 = 46 := by decide
      rw [hdot] at h
      generalize c.val.toNat = v at h
      dsimp only at h
      -- the bytes of a character that takes more than one are 128 or more
      repeat' split at h
      all_goals
        simp only [List.mem_cons, List.not_mem_nil, or_false, ← UInt8.toNat_inj,
          UInt8.toNat_ofNat'] at h
        simp at h
        omega
    exact Char.ext (UInt32.toNat_inj.1 hvalue)
  · rintro rfl
    decide

theorem dot_mem_encoded_iff {cs : List Char} :
    '.'.toUInt8 ∈ cs.flatMap String.utf8EncodeChar ↔ '.' ∈ cs := by
  simp [dot_mem_utf8EncodeChar_iff]

/-! ## Order -/

theorem utf8EncodeChar_append_lt {c d : Char} (h : c < d) (xs ys : List UInt8) :
    String.utf8EncodeChar c ++ xs < String.utf8EncodeChar d ++ ys := by
  have hlt : c.val.toNat < d.val.toNat := h
  have hmax : d.val.toNat < 0x110000 := by
    rcases d.valid with h | h
    · exact Nat.lt_trans h (by decide)
    · exact h.2
  unfold String.utf8EncodeChar
  generalize c.val.toNat = v at hlt
  generalize d.val.toNat = w at hlt hmax
  dsimp only
  -- one to four bytes each; where the first ones are equal, later ones tell
  repeat' split
  all_goals
    simp only [List.cons_append, List.nil_append, List.cons_lt_cons_iff, UInt8.lt_iff_toNat_lt,
      ← UInt8.toNat_inj, UInt8.toNat_ofNat']
    simp (disch := omega) only [Nat.mod_eq_of_lt]
    omega

theorem flatMap_utf8EncodeChar_lt {cs ds : List Char} (h : cs < ds) :
    cs.flatMap String.utf8EncodeChar < ds.flatMap String.utf8EncodeChar := by
  induction cs generalizing ds with
  | nil =>
    cases ds with
    | nil => exact absurd h (List.lt_irrefl [])
    | cons d ds =>
      obtain ⟨b, bs, hb⟩ := List.exists_cons_of_ne_nil (String.utf8EncodeChar_ne_nil (c := d))
      rw [List.flatMap_cons, hb]
      exact List.nil_lt_cons _ _
  | cons c cs ih =>
    cases ds with
    | nil => exact absurd h (List.not_lt_nil _)
    | cons d ds =>
      rw [List.flatMap_cons, List.flatMap_cons]
      rcases List.cons_lt_cons_iff.1 h with hlt | ⟨rfl, hlt⟩
      · exact utf8EncodeChar_append_lt hlt _ _
      · exact List.append_left_lt (ih hlt)

theorem bytes_lt_bytes_iff {s t : String} : bytes s < bytes t ↔ s < t := by
  have hlt : ∀ {s t : String}, s < t → bytes s < bytes t := by
    intro s t h
    rw [bytes_eq, bytes_eq]
    exact flatMap_utf8EncodeChar_lt (String.lt_iff.1 h)
  refine ⟨fun h => ?_, hlt⟩
  refine Decidable.byContradiction fun hn => ?_
  rcases Decidable.em (s = t) with rfl | hne
  · exact List.lt_irrefl _ h
  · exact List.lt_asymm h (hlt (Std.lt_of_le_of_ne hn (Ne.symm hne)))

end CatalogAudit.Text
