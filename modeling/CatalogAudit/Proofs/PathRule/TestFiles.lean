/-
  CatalogAudit.Proofs.PathRule.TestFiles — which files the built-in patterns take for tests.

  What a glob matches is said token by token: a word stands where it stands, `*` passes over
  anything, and `**` over whole components, each with its slash (`matchTokens_word`,
  `matchTokens_anySequence`, `matchTokens_anyComponents`). So a word between two stars matches
  wherever it occurs in a path, across slashes too (`matchTokens_anywhere_iff`), and a name
  between two double stars matches a component of just that name with something below it
  (`matchTokens_directory_iff`). Together these are what `test_files_are_told_by_name` says.
-/

import CatalogAudit.Proofs.PathRule.Covering
import CatalogAudit.Proofs.Text.Splitting
import CatalogAudit.SourceFiles

namespace CatalogAudit

open Text

/-- What comes before the last piece has pieces after it. -/
theorem Text.exists_splitOn_eq {sep : Char} {piece cs : List Char}
    (h : piece ∈ (splitOn sep cs).dropLast) :
    ∃ pieces rest, rest ≠ [] ∧ splitOn sep cs = pieces ++ piece :: rest := by
  obtain ⟨pieces, more, hpieces⟩ := List.append_of_mem h
  have hne := splitOn_ne_nil sep cs
  refine ⟨pieces, more ++ [(splitOn sep cs).getLast hne], by simp, ?_⟩
  calc splitOn sep cs
    _ = (splitOn sep cs).dropLast ++ [(splitOn sep cs).getLast hne] :=
      (List.dropLast_concat_getLast hne).symm
    _ = pieces ++ piece :: (more ++ [(splitOn sep cs).getLast hne]) := by
      rw [hpieces, List.append_assoc, List.cons_append]

/-- A piece before the last one has a separator after it, and one before it unless it is the
first. -/
theorem Text.mem_dropLast_splitOn_iff {sep : Char} {piece cs : List Char} (h : sep ∉ piece) :
    piece ∈ (splitOn sep cs).dropLast ↔
      ∃ rest, cs = piece ++ sep :: rest ∨ ∃ before, cs = before ++ sep :: piece ++ sep :: rest := by
  constructor
  · intro hm
    obtain ⟨pieces, rest, hrest, hsplit⟩ := exists_splitOn_eq hm
    have hcs : cs = join [sep] (pieces ++ piece :: rest) := by rw [← hsplit, join_splitOn]
    have hpiece : join [sep] (piece :: rest) = piece ++ sep :: join [sep] rest := by
      have hfirst := join_append [sep] (List.cons_ne_nil piece []) hrest
      rw [List.singleton_append] at hfirst
      rw [hfirst]
      simp [join]
    refine ⟨join [sep] rest, ?_⟩
    cases pieces with
    | nil =>
      left
      rw [hcs, List.nil_append, hpiece]
    | cons first pieces =>
      right
      refine ⟨join [sep] (first :: pieces), ?_⟩
      rw [hcs, join_append [sep] (List.cons_ne_nil first pieces) (List.cons_ne_nil piece rest),
        hpiece]
      simp
  · rintro ⟨rest, rfl | ⟨before, rfl⟩⟩
    · rw [splitOn_append_cons, splitOn_of_not_mem h,
        List.dropLast_append_of_ne_nil (splitOn_ne_nil sep rest)]
      exact List.mem_cons_self
    · rw [splitOn_append_cons, List.dropLast_append_of_ne_nil (splitOn_ne_nil sep rest),
        splitOn_append_cons, splitOn_of_not_mem h]
      simp

namespace Glob

variable {tokens : List Token} {cs word name : List Char}

/-! ## What each token matches -/

theorem mem_suffixes {rest : List Char} : rest ∈ suffixes cs ↔ rest <:+ cs := by
  induction cs with
  | nil => simp [suffixes]
  | cons c cs ih => rw [suffixes, List.mem_cons, ih, List.suffix_cons_iff]

theorem mem_afterSlashes {rest : List Char} :
    rest ∈ afterSlashes cs ↔ rest = [] ∨ ∃ before, cs = before ++ '/' :: rest := by
  induction cs with
  | nil => simp [afterSlashes]
  | cons c cs ih =>
    have hcons : (∃ before, c :: cs = before ++ '/' :: rest) ↔
        (c = '/' ∧ cs = rest) ∨ ∃ before, cs = before ++ '/' :: rest := by
      constructor
      · rintro ⟨before, h⟩
        cases before with
        | nil => exact .inl (List.cons.inj h)
        | cons first before => exact .inr ⟨before, (List.cons.inj h).2⟩
      · rintro (⟨rfl, rfl⟩ | ⟨before, rfl⟩)
        · exact ⟨[], rfl⟩
        · exact ⟨c :: before, rfl⟩
    rw [hcons, afterSlashes]
    split
    · next hc =>
      rw [List.mem_cons, ih, eq_comm (a := rest)]
      simp [hc, or_left_comm]
    · next hc =>
      rw [ih]
      simp [hc]

/-- Characters of a pattern stand for themselves. -/
theorem matchTokens_word :
    matchTokens (word.map .char ++ tokens) cs = true ↔
      ∃ rest, cs = word ++ rest ∧ matchTokens tokens rest = true := by
  induction word generalizing cs with
  | nil => simp
  | cons w word ih =>
    cases cs with
    | nil => simp [matchTokens]
    | cons c cs =>
      rw [List.map_cons, List.cons_append, matchTokens, Bool.and_eq_true, ih, Token.accepts,
        beq_iff_eq]
      · simp [and_assoc]
      all_goals simp

theorem matchTokens_anySequence :
    matchTokens (.anySequence :: tokens) cs = true ↔
      ∃ rest, rest <:+ cs ∧ matchTokens tokens rest = true := by
  simp [matchTokens, mem_suffixes]

theorem matchTokens_anyComponents :
    matchTokens (.anyComponents :: tokens) cs = true ↔
      matchTokens tokens cs = true ∨ matchTokens tokens [] = true ∨
        ∃ before rest, cs = before ++ '/' :: rest ∧ matchTokens tokens rest = true := by
  rw [matchTokens, List.any_cons, Bool.or_eq_true, List.any_eq_true]
  refine or_congr_right ?_
  constructor
  · rintro ⟨rest, hrest, hmatch⟩
    rcases mem_afterSlashes.1 hrest with rfl | ⟨before, hcs⟩
    · exact .inl hmatch
    · exact .inr ⟨before, rest, hcs, hmatch⟩
  · rintro (hmatch | ⟨before, rest, hcs, hmatch⟩)
    · exact ⟨[], mem_afterSlashes.2 (.inl rfl), hmatch⟩
    · exact ⟨rest, mem_afterSlashes.2 (.inr ⟨before, hcs⟩), hmatch⟩

/-! ## The two kinds of patterns -/

/-- `*word*` as the last component of a pattern that starts with `**`. -/
def anywhere (word : List Char) : List Token :=
  .anyComponents :: .anySequence :: (word.map .char ++ [.anySequence])

/-- A component `name` between two `**`. -/
def directory (name : List Char) : List Token :=
  .anyComponents :: ((name ++ ['/']).map .char ++ [.anyComponents])

theorem matchTokens_anything : matchTokens [.anySequence] cs = true :=
  matchTokens_anySequence.2 ⟨[], List.nil_suffix, rfl⟩

theorem matchTokens_below : matchTokens [.anyComponents] cs = true :=
  matchTokens_anyComponents.2 (.inr (.inl rfl))

theorem matchTokens_word_inside :
    matchTokens (.anySequence :: (word.map .char ++ [.anySequence])) cs = true ↔
      word <:+: cs := by
  rw [matchTokens_anySequence]
  simp only [matchTokens_word, matchTokens_anything, and_true]
  constructor
  · rintro ⟨rest, ⟨before, rfl⟩, after, rfl⟩
    exact ⟨before, after, by simp⟩
  · rintro ⟨before, after, rfl⟩
    exact ⟨word ++ after, ⟨before, by simp⟩, after, rfl⟩

/-- The components passed over first make no difference: a star passes over them as well. -/
theorem matchTokens_anywhere_iff : matchTokens (anywhere word) cs = true ↔ word <:+: cs := by
  rw [anywhere, matchTokens_anyComponents]
  simp only [matchTokens_word_inside]
  constructor
  · rintro (h | h | ⟨before, rest, rfl, h⟩)
    · exact h
    · exact h.trans (List.nil_infix)
    · exact h.trans ((List.suffix_cons '/' rest).isInfix.trans
        (List.suffix_append before _).isInfix)
  · exact .inl

theorem matchTokens_directory_iff (h : '/' ∉ name) :
    matchTokens (directory name) cs = true ↔ name ∈ (splitOn '/' cs).dropLast := by
  rw [directory, matchTokens_anyComponents, mem_dropLast_splitOn_iff h]
  simp only [matchTokens_word, matchTokens_below, and_true]
  constructor
  · rintro (⟨rest, rfl⟩ | ⟨rest, hnil⟩ | ⟨before, _, rfl, rest, rfl⟩)
    · exact ⟨rest, .inl (by simp)⟩
    · simp at hnil
    · exact ⟨rest, .inr ⟨before, by simp⟩⟩
  · rintro ⟨rest, rfl | ⟨before, rfl⟩⟩
    · exact .inl ⟨rest, by simp⟩
    · exact .inr (.inr ⟨before, _, by simp, rest, rfl⟩)

end Glob

namespace SourceFiles

open Glob

theorem rules_testFilePatterns :
    (rules testFilePatterns).1 = [.glob (anywhere ".test.".toList),
      .glob (anywhere ".spec.".toList), .glob (directory "__tests__".toList)] := by
  decide

/-- A file is taken for a test by a word in its path, or by the name of a directory above it. -/
theorem test_files_are_told_by_name {components : List String} (hne : components ≠ [])
    (hc : ∀ component ∈ components, '/' ∉ component.toList) :
    (rules testFilePatterns).1.any (·.covers (joined "/" components)) = true ↔
      ".test.".toList <:+: (joined "/" components).toList ∨
        ".spec.".toList <:+: (joined "/" components).toList ∨
        "__tests__" ∈ components.dropLast := by
  have hpath : (joined "/" components).toList = join ['/'] (components.map String.toList) := by
    rw [joined, String.toList_ofList]
    rfl
  have hpieces : ∀ piece ∈ components.map String.toList, '/' ∉ piece := by
    intro piece hp
    obtain ⟨component, hcomponent, rfl⟩ := List.mem_map.1 hp
    exact hc component hcomponent
  have hdirectory : "__tests__".toList ∈ (splitOn '/' (joined "/" components).toList).dropLast ↔
      "__tests__" ∈ components.dropLast := by
    rw [hpath, splitOn_join (by simpa using hne) hpieces, ← List.map_dropLast, List.mem_map]
    constructor
    · rintro ⟨component, hm, e⟩
      exact String.toList_inj.1 e ▸ hm
    · exact fun hm => ⟨_, hm, rfl⟩
  have hcovers : ∀ tokens, (PathRule.glob tokens).covers (joined "/" components) = true ↔
      matchTokens tokens (joined "/" components).toList = true := fun _ => PathRule.covers_iff
  have hname : '/' ∉ "__tests__".toList := by decide
  rw [rules_testFilePatterns]
  simp only [List.any_cons, List.any_nil, Bool.or_false, Bool.or_eq_true, hcovers,
    matchTokens_anywhere_iff, matchTokens_directory_iff hname, hdirectory]

/-- What is in a directory of tests is one; a directory of another name and a file of that name
are none. -/
theorem test_files_are_told_by_name_directory :
    (rules testFilePatterns).1.any (·.covers (joined "/" ["src", "__tests__", "a.ts"])) = true ∧
      (rules testFilePatterns).1.any
        (·.covers (joined "/" ["my__tests__", "x.test", "__tests__"])) = false := by
  have hnested := @test_files_are_told_by_name ["src", "__tests__", "a.ts"] (by decide) (by decide)
  have hother := @test_files_are_told_by_name ["my__tests__", "x.test", "__tests__"] (by decide)
    (by decide)
  refine ⟨hnested.2 (.inr (.inr (by decide))), ?_⟩
  rw [Bool.eq_false_iff, Ne, hother, ← occurs_iff, ← occurs_iff]
  decide

end SourceFiles

end CatalogAudit
