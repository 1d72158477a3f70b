/-
  CatalogAudit.Proofs.Text.Splitting — a text split at a separator, and pieces joined by one.

  Where a text goes on after a separator its pieces go on too (`splitOn_append_cons`), otherwise
  its last piece does (`splitOn_append_of_not_mem`). Pieces that do not hold the separator are
  those of their joined text (`splitOn_join`), so a piece of the list is a piece of the text that
  ends at a separator or with the text (`splitOn_prefix_iff`).
-/

import CatalogAudit.Text.Basic
import Mathlib.Data.List.TakeWhile

namespace CatalogAudit.Text

variable {sep : Char} {pieces : List (List Char)}

/-! ## Splitting -/

theorem splitOn_append_cons (sep : Char) (xs ys : List Char) :
    splitOn sep (xs ++ sep :: ys) = splitOn sep xs ++ splitOn sep ys := by
  induction xs with
  | nil => simp [splitOn]
  | cons c xs ih =>
    rw [List.cons_append, splitOn, splitOn, ih]
    by_cases hc : c = sep
    · simp [hc]
    · obtain ⟨piece, pieces, hs⟩ := List.exists_cons_of_ne_nil (splitOn_ne_nil sep xs)
      simp [hc, hs]

theorem splitOn_of_not_mem {xs : List Char} (h : sep ∉ xs) : splitOn sep xs = [xs] := by
  induction xs with
  | nil => rfl
  | cons c xs ih =>
    rw [List.mem_cons, not_or] at h
    rw [splitOn, if_neg (Ne.symm h.1), ih h.2]

/-- What is appended without a separator goes to the last piece. -/
theorem splitOn_append_of_not_mem (before : List Char) {ending : List Char}
    (h : sep ∉ ending) :
    ∃ pieces last, splitOn sep (before ++ ending) = pieces ++ [last ++ ending] := by
  induction before with
  | nil => exact ⟨[], [], splitOn_of_not_mem h⟩
  | cons c before ih =>
    obtain ⟨pieces, last, ih⟩ := ih
    rw [List.cons_append, splitOn, ih]
    split
    · exact ⟨[] :: pieces, last, rfl⟩
    · cases pieces with
      | nil => exact ⟨[], c :: last, rfl⟩
      | cons piece pieces => exact ⟨(c :: piece) :: pieces, last, rfl⟩

/-- Nothing is left of the pieces when the text is separators and nothing else. -/
theorem filter_splitOn_eq_nil_iff {cs : List Char} :
    (splitOn sep cs).filter (!·.isEmpty) = [] ↔ ∀ c ∈ cs, c = sep := by
  induction cs with
  | nil => simp [splitOn]
  | cons c cs ih =>
    obtain ⟨piece, pieces, hs⟩ := List.exists_cons_of_ne_nil (splitOn_ne_nil sep cs)
    rw [splitOn]
    by_cases hc : c = sep
    · rw [if_pos hc, List.filter_cons_of_neg (by simp), ih]
      simp [hc]
    · simp [hc, hs]

/-! ## Joining -/

theorem join_append (sep : List Char) {xs ys : List (List Char)} (hx : xs ≠ []) (hy : ys ≠ []) :
    join sep (xs ++ ys) = join sep xs ++ sep ++ join sep ys := by
  induction xs with
  | nil => exact absurd rfl hx
  | cons x xs ih =>
    cases xs with
    | nil =>
      obtain ⟨y, ys, rfl⟩ := List.exists_cons_of_ne_nil hy
      rfl
    | cons x' xs =>
      have hjoin : ∀ rest, join sep (x :: x' :: rest) = x ++ sep ++ join sep (x' :: rest) :=
        fun _ => rfl
      rw [List.cons_append, List.cons_append, hjoin, hjoin, ← List.cons_append,
        ih (List.cons_ne_nil x' xs)]
      simp only [List.append_assoc]

theorem joined_append (sep : String) {xs ys : List String} (hx : xs ≠ []) (hy : ys ≠ []) :
    joined sep (xs ++ ys) = joined sep xs ++ sep ++ joined sep ys := by
  apply String.toList_inj.1
  simp [joined, join_append, hx, hy]

theorem joined_cons_cons (sep piece next : String) (pieces : List String) :
    joined sep (piece :: next :: pieces) = piece ++ sep ++ joined sep (next :: pieces) := by
  apply String.toList_inj.1
  simp [joined, join]

theorem infix_join (sep : List Char) {piece : List Char} (h : piece ∈ pieces) :
    piece <:+: join sep pieces := by
  induction pieces with
  | nil => cases h
  | cons first pieces ih =>
    cases pieces with
    | nil => rw [List.mem_singleton.1 h]; exact List.infix_refl first
    | cons next pieces =>
      have hjoin : join sep (first :: next :: pieces) = first ++ sep ++ join sep (next :: pieces) :=
        rfl
      rw [hjoin]
      rcases List.mem_cons.1 h with rfl | h
      · rw [List.append_assoc]
        exact (List.prefix_append piece _).isInfix
      · exact (ih h).trans (List.suffix_append _ _).isInfix

/-- A piece stands in the text. -/
theorem infix_of_mem_splitOn {cs piece : List Char} (h : piece ∈ splitOn sep cs) :
    piece <:+: cs := by
  have hpiece := infix_join [sep] h
  rwa [join_splitOn] at hpiece

/-- Pieces without the separator are those of their joined text. -/
theorem splitOn_join (hne : pieces ≠ []) (h : ∀ piece ∈ pieces, sep ∉ piece) :
    splitOn sep (join [sep] pieces) = pieces := by
  induction pieces with
  | nil => exact absurd rfl hne
  | cons piece pieces ih =>
    obtain ⟨hpiece, hpieces⟩ := List.forall_mem_cons.1 h
    cases pieces with
    | nil => exact splitOn_of_not_mem hpiece
    | cons next pieces =>
      have hjoin : join [sep] (piece :: next :: pieces) =
          piece ++ sep :: join [sep] (next :: pieces) := by simp [join]
      rw [hjoin, splitOn_append_cons, splitOn_of_not_mem hpiece,
        ih (List.cons_ne_nil next pieces) hpieces, List.singleton_append]

/-- A text whose pieces come first among others is the whole of their joined text, or all of it
up to a separator. -/
theorem splitOn_prefix_iff {start : List Char} (hne : pieces ≠ [])
    (h : ∀ piece ∈ pieces, sep ∉ piece) :
    splitOn sep start <+: pieces ↔
      join [sep] pieces = start ∨ ∃ rest, join [sep] pieces = start ++ sep :: rest := by
  constructor
  · rintro ⟨more, rfl⟩
    by_cases hmore : more = []
    · left
      rw [hmore, List.append_nil, join_splitOn]
    · right
      refine ⟨join [sep] more, ?_⟩
      rw [join_append [sep] (splitOn_ne_nil sep start) hmore, join_splitOn]
      simp
  · rintro (rfl | ⟨rest, hrest⟩)
    · exact ⟨[], by rw [List.append_nil, splitOn_join hne h]⟩
    · rw [← splitOn_join hne h, hrest, splitOn_append_cons]
      exact List.prefix_append _ _

/-! ## Trimming and search -/

/-- What is trimmed at the end is of the class. -/
theorem exists_trimEnd_append (p : Char → Bool) (cs : List Char) :
    ∃ ending, trimEnd p cs ++ ending = cs ∧ ∀ c ∈ ending, p c = true := by
  refine ⟨(cs.reverse.takeWhile p).reverse, ?_, fun c hc => ?_⟩
  · rw [trimEnd, ← List.reverse_append, List.takeWhile_append_dropWhile, List.reverse_reverse]
  · exact List.mem_takeWhile_imp (List.mem_reverse.1 hc)

/-- Nothing of the class is left at the end. -/
theorem any_getLast?_trimEnd (p : Char → Bool) (cs : List Char) :
    (trimEnd p cs).getLast?.any p = false := by
  have hhead := List.head?_dropWhile_not p cs.reverse
  rw [trimEnd, List.getLast?_reverse]
  cases h : (cs.reverse.dropWhile p).head? with
  | none => rfl
  | some c => simpa [h] using hhead

theorem occurs_iff {piece cs : List Char} : occurs piece cs = true ↔ piece <:+: cs := by
  induction cs with
  | nil => simp [occurs]
  | cons c cs ih =>
    rw [occurs, Bool.or_eq_true, List.isPrefixOf_iff_prefix, ih, List.infix_cons_iff]

end CatalogAudit.Text
