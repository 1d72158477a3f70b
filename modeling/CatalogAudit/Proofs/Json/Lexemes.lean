/-
  CatalogAudit.Proofs.Json.Lexemes — strings and integers that are written read back.

  Whatever comes after it, a string that was written is read as far as its closing quote and
  gives the string again (`readString_escaped`). An integer of 64 bits is read as far as its
  last digit, when what comes after does not go on with it (`readDigits_toDigits`).
-/

import CatalogAudit.Json.Lexeme
import CatalogAudit.Json.Numeral
import CatalogAudit.Json.Writer
import Mathlib.Data.List.TakeDrop

namespace CatalogAudit.Json

/-! ## Strings -/

theorem hexValue?_digitChar : ∀ n < 16, hexValue? (Nat.digitChar n) = some n := by decide

/-- A control character is read from its `\u` escape. -/
theorem readEscape_control {c : Char} (h : c.toNat < 0x20) (rest : List Char) :
    readEscape ('u' :: '0' :: '0' :: Nat.digitChar (c.toNat / 16) ::
      Nat.digitChar (c.toNat % 16) :: rest) = .ok (c, rest) := by
  have hhigh := hexValue?_digitChar (c.toNat / 16) (by omega)
  have hlow := hexValue?_digitChar (c.toNat % 16) (by omega)
  have hzero : hexValue? '0' = some 0 := hexValue?_digitChar 0 (by decide)
  have hunit : ((0 * 16 + 0) * 16 + c.toNat / 16) * 16 + c.toNat % 16 = c.toNat := by omega
  have htrailing : isTrailing c.toNat = false := by simp [isTrailing]; omega
  have hleading : isLeading c.toNat = false := by simp [isLeading]; omega
  simp only [readEscape, if_true, readUnicodeEscape, readUnit, hhigh, hlow, hzero, hunit, bind,
    Except.bind, htrailing, hleading, Bool.false_eq_true, if_false, Char.ofNat_toNat]

theorem readCharsWithin_escape (escape : List Char) {c : Char} {cs ds rest : List Char}
    (hescape : readEscape (escape ++ cs) = .ok (c, cs)) (b : Char) {bound : List Char}
    (h : readCharsWithin bound cs = .ok (ds, rest)) :
    readCharsWithin (b :: bound) ('\\' :: escape ++ cs) = .ok (c :: ds, rest) := by
  simp [readCharsWithin, hescape, h, bind, Except.bind]

/-- One character is read from what was written for it. -/
theorem readCharsWithin_escapeChar (c b : Char) {bound cs ds rest : List Char}
    (h : readCharsWithin bound cs = .ok (ds, rest)) :
    readCharsWithin (b :: bound) (escapeChar c ++ cs) = .ok (c :: ds, rest) := by
  unfold escapeChar
  split
  · next hc =>
    refine readCharsWithin_escape [c] ?_ b h
    simp only [Bool.or_eq_true, decide_eq_true_eq] at hc
    rcases hc with rfl | rfl <;> rfl
  · next hc =>
    simp only [Bool.or_eq_true, decide_eq_true_eq, not_or] at hc
    split
    · next e => exact e ▸ readCharsWithin_escape ['n'] rfl b h
    split
    · next e => exact e ▸ readCharsWithin_escape ['r'] rfl b h
    split
    · next e => exact e ▸ readCharsWithin_escape ['t'] rfl b h
    split
    · next e => exact e ▸ readCharsWithin_escape ['b'] rfl b h
    split
    · next e => exact e ▸ readCharsWithin_escape ['f'] rfl b h
    split
    · next hcontrol =>
      exact readCharsWithin_escape ['u', '0', '0', Nat.digitChar (c.toNat / 16),
        Nat.digitChar (c.toNat % 16)] (readEscape_control hcontrol cs) b h
    · next hplain => simp [readCharsWithin, hc, hplain, h, bind, Except.bind]

theorem readCharsWithin_escaped (ds rest : List Char) {bound : List Char}
    (hbound : ds.length < bound.length) :
    readCharsWithin bound (ds.flatMap escapeChar ++ '"' :: rest) = .ok (ds, rest) := by
  induction ds generalizing bound with
  | nil =>
    cases bound with
    | nil => simp at hbound
    | cons b bound => simp [readCharsWithin]
  | cons d ds ih =>
    cases bound with
    | nil => simp at hbound
    | cons b bound =>
      rw [List.flatMap_cons, List.append_assoc]
      exact readCharsWithin_escapeChar d b (ih (by simpa using hbound))

theorem length_le_flatMap_escapeChar (ds : List Char) :
    ds.length ≤ (ds.flatMap escapeChar).length := by
  induction ds with
  | nil => exact Nat.le_refl _
  | cons d ds ih =>
    have hd : 0 < (escapeChar d).length := by
      unfold escapeChar
      repeat' split
      all_goals simp
    rw [List.flatMap_cons, List.length_append, List.length_cons]
    omega

/-- A string is read from its characters, escaped, and its closing quote. -/
theorem readString_escaped (s : String) (rest : List Char) :
    readString (s.toList.flatMap escapeChar ++ '"' :: rest) = .ok (s, rest) := by
  have hlength := length_le_flatMap_escapeChar s.toList
  have hread : readCharsWithin (s.toList.flatMap escapeChar ++ '"' :: rest)
      (s.toList.flatMap escapeChar ++ '"' :: rest) = .ok (s.toList, rest) :=
    readCharsWithin_escaped s.toList rest (by
      rw [List.length_append, List.length_cons]
      omega)
  simp [readString, readChars, hread, bind, Except.bind]

/-! ## Integers -/

/-- Whether an integer fits in 64 bits, with or without a sign. -/
def isWord (n : Int) : Bool := -0x8000000000000000 ≤ n && n ≤ wordMax

theorem isWord_iff {n : Int} :
    isWord n = true ↔ -0x8000000000000000 ≤ n ∧ n ≤ 0xFFFFFFFFFFFFFFFF := by
  rw [isWord, Bool.and_eq_true, decide_eq_true_eq, decide_eq_true_eq]
  exact Iff.rfl

/-- A text with which no number goes on. -/
def EndsNumber (rest : List Char) : Prop :=
  ∀ c, rest.head? = some c → c.isDigit = false ∧ c ≠ '.' ∧ isExponentMark c = false

theorem splitDigits_append {ds rest : List Char} (hds : ∀ d ∈ ds, d.isDigit = true)
    (hrest : ∀ c, rest.head? = some c → c.isDigit = false) :
    splitDigits (ds ++ rest) = (ds, rest) := by
  rw [splitDigits, List.span_eq_takeWhile_dropWhile, List.takeWhile_append_of_pos hds,
    List.dropWhile_append_of_pos hds]
  cases rest with
  | nil => simp
  | cons c cs => simp [hrest c rfl]

/-- Digits whose value fits are all taken. -/
theorem takeDigits_of_le {ds : List Char} {n : Nat} (h : Nat.ofDigitChars 10 ds n ≤ wordMax) :
    takeDigits n ds = (Nat.ofDigitChars 10 ds n, 0) := by
  induction ds generalizing n with
  | nil => rfl
  | cons d ds ih =>
    have hvalue : n * 10 + digitValue d = 10 * n + (d.toNat - '0'.toNat) := by
      rw [digitValue, Nat.mul_comm]
    rw [Nat.ofDigitChars_cons, ← hvalue] at h ⊢
    have hgrows : n * 10 + digitValue d ≤ Nat.ofDigitChars 10 ds (n * 10 + digitValue d) := by
      rw [Nat.ofDigitChars_eq_ofDigitChars_zero]
      exact Nat.le_trans (Nat.le_mul_of_pos_left _ (Nat.pow_pos (by decide)))
        (Nat.le_add_right _ _)
    rw [takeDigits, if_pos (Nat.le_trans hgrows h), ih h]

theorem head?_toDigits_ne_zero {n : Nat} (h : 0 < n) : (Nat.toDigits 10 n).head? ≠ some '0' := by
  induction n using Nat.strongRecOn with
  | ind n ih =>
    rw [Nat.toDigits_eq_if (by decide)]
    split
    · simp [Nat.digitChar_eq_zero, Nat.ne_of_gt h]
    · next hn =>
      obtain ⟨c, cs, hcs⟩ := List.exists_cons_of_ne_nil
        (Nat.toDigits_ne_nil (n := n / 10) (b := 10))
      have hhead := ih (n / 10) (by omega) (by omega)
      rw [hcs] at hhead ⊢
      exact hhead

/-- The digits of a number of 64 bits read back as that number. -/
theorem readDigits_toDigits (negative : Bool) {n : Nat} (hn : n ≤ wordMax) {rest : List Char}
    (hrest : EndsNumber rest) :
    readDigits negative (Nat.toDigits 10 n ++ rest) = .ok (integer negative n, rest) := by
  have hwhole : ∀ ds : List Char, Nat.ofDigitChars 10 ds 0 = n →
      readAfterWhole negative ds rest = .ok (integer negative n, rest) := by
    intro ds hds
    have htake : takeDigits 0 ds = (Nat.ofDigitChars 10 ds 0, 0) := takeDigits_of_le (hds ▸ hn)
    rw [hds] at htake
    unfold readAfterWhole
    simp only [htake]
    split
    · next cs => exact absurd rfl (hrest '.' rfl).2.1
    · have hmark : rest.head?.any isExponentMark = false := by
        rw [Option.any_eq_false]
        exact fun c hc => by simp [(hrest c hc).2.2]
      simp [hmark]
  rcases Nat.eq_zero_or_pos n with rfl | hpos
  · have hdigit : rest.head?.any Char.isDigit = false := by
      rw [Option.any_eq_false]
      exact fun c hc => by simp [(hrest c hc).1]
    simp only [Nat.toDigits_zero, List.singleton_append, readDigits, if_true, hdigit,
      Bool.false_eq_true, if_false]
    exact hwhole ['0'] rfl
  · have hdigits : ∀ d ∈ Nat.toDigits 10 n, d.isDigit = true := fun d hd =>
      Nat.isDigit_of_mem_toDigits (by decide) (by decide) hd
    have hsplit := splitDigits_append hdigits fun c hc => (hrest c hc).1
    have hzero := head?_toDigits_ne_zero hpos
    have hvalue := hwhole _ (Nat.ofDigitChars_ten_toDigits (n := n))
    obtain ⟨c, cs, hcs⟩ := List.exists_cons_of_ne_nil (Nat.toDigits_ne_nil (n := n) (b := 10))
    rw [hcs] at hdigits hsplit hzero hvalue ⊢
    rw [List.cons_append] at hsplit ⊢
    rw [readDigits, if_neg (by simpa using hzero), if_pos (hdigits c List.mem_cons_self), hsplit]
    exact hvalue

end CatalogAudit.Json
