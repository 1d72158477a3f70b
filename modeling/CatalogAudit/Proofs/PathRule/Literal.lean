/-
  CatalogAudit.Proofs.PathRule.Literal — what an entry without a wildcard covers.

  An entry is spelled like a path, and segments that are empty or `.` say nothing in it. A literal
  entry is meant to cover the path of its other segments and what lies below it. The rule drops
  `./` in front and the slashes at both ends and compares what is left with the text of a path
  (`covers_literal_iff`). An entry that is tidy then, with no segment left in it that says
  nothing, covers what it is meant to cover; one that is not covers nothing
  (`literal_covers_iff`): `.` and `src//app` do not mean `./` and `src/app`
  (`literal_may_cover_nothing`).
-/

import CatalogAudit.Proofs.Path.Children
import CatalogAudit.Proofs.PathRule.Covering

namespace CatalogAudit

open CatalogAudit.Path Text

namespace PathRule

/-- The segments of an entry that say something. -/
def segments (entry : String) : List String :=
  ((splitOn '/' entry.toList).filter (!isIdle ·)).map String.ofList

/-- What is compared with a path when an entry is literal. -/
def literal (entry : String) : List Char := trim (· == '/') (dropHere entry.toList)

/-- Nothing is left in an entry between its segments that says nothing. -/
def IsTidy (entry : String) : Prop :=
  literal entry = [] ∨ ∀ segment ∈ splitOn '/' (literal entry), isIdle segment = false

instance (entry : String) : Decidable (IsTidy entry) := inferInstanceAs (Decidable (_ ∨ _))

/-! ## What is dropped says nothing -/

theorem filter_splitOn_dropHere (cs : List Char) :
    (splitOn '/' (dropHere cs)).filter (!isIdle ·) = (splitOn '/' cs).filter (!isIdle ·) := by
  fun_induction dropHere cs with
  | case1 cs ih =>
    rw [ih]
    simp [splitOn, isIdle]
  | case2 cs => rfl

theorem filter_splitOn_trimStart (cs : List Char) :
    (splitOn '/' (trimStart (· == '/') cs)).filter (!isIdle ·) =
      (splitOn '/' cs).filter (!isIdle ·) := by
  induction cs with
  | nil => rfl
  | cons c cs ih =>
    by_cases hc : c = '/'
    · subst hc
      have hslash : splitOn '/' ('/' :: cs) = [] :: splitOn '/' cs := rfl
      have htrim : trimStart (· == '/') ('/' :: cs) = trimStart (· == '/') cs := rfl
      rw [htrim, ih, hslash]
      rfl
    · have htrim : trimStart (· == '/') (c :: cs) = c :: cs := by simp [trimStart, hc]
      rw [htrim]

theorem filter_splitOn_append {ending : List Char} (h : ∀ c ∈ ending, c = '/')
    (cs : List Char) :
    (splitOn '/' (cs ++ ending)).filter (!isIdle ·) = (splitOn '/' cs).filter (!isIdle ·) := by
  induction ending generalizing cs with
  | nil => rw [List.append_nil]
  | cons c ending ih =>
    obtain ⟨rfl, hending⟩ := List.forall_mem_cons.1 h
    have hslashes := ih hending []
    rw [splitOn_append_cons, List.filter_append]
    rw [List.nil_append] at hslashes
    rw [hslashes]
    simp [splitOn, isIdle]

theorem filter_splitOn_literal (entry : String) :
    (splitOn '/' (literal entry)).filter (!isIdle ·) =
      (splitOn '/' entry.toList).filter (!isIdle ·) := by
  obtain ⟨ending, hcs, hending⟩ :=
    exists_trimEnd_append (· == '/') (trimStart (· == '/') (dropHere entry.toList))
  have hslashes : ∀ c ∈ ending, c = '/' := fun c hc => by simpa using hending c hc
  calc (splitOn '/' (literal entry)).filter (!isIdle ·)
    _ = (splitOn '/' (literal entry ++ ending)).filter (!isIdle ·) :=
      (filter_splitOn_append hslashes _).symm
    _ = (splitOn '/' (trimStart (· == '/') (dropHere entry.toList))).filter (!isIdle ·) := by
      rw [literal, trim, hcs]
    _ = (splitOn '/' entry.toList).filter (!isIdle ·) := by
      rw [filter_splitOn_trimStart, filter_splitOn_dropHere]

theorem segments_of_literal_nil {entry : String} (h : literal entry = []) :
    segments entry = [] := by
  rw [segments, ← filter_splitOn_literal, h]
  rfl

theorem map_toList_segments {entry : String}
    (h : ∀ segment ∈ splitOn '/' (literal entry), isIdle segment = false) :
    (segments entry).map String.toList = splitOn '/' (literal entry) := by
  have hall : (splitOn '/' (literal entry)).filter (!isIdle ·) = splitOn '/' (literal entry) :=
    List.filter_eq_self.2 fun segment hs => by simp [h segment hs]
  rw [segments, ← filter_splitOn_literal, hall, List.map_map]
  simp [Function.comp_def]

/-! ## What is covered -/

theorem parse_literal {entry : String} (h : hasWildcard entry = false) :
    PathRule.parse entry = .ok (.below (literal entry)) := by
  rw [PathRule.parse, h]
  rfl

section
variable {names : List String} (hne : names ≠ []) (hnames : ∀ name ∈ names, IsName name)
include hnames

theorem isIdle_of_isName : ∀ segment ∈ names.map String.toList, isIdle segment = false := by
  intro segment hs
  obtain ⟨name, hname, rfl⟩ := List.mem_map.1 hs
  obtain ⟨hempty, hhere, -, -⟩ := hnames name hname
  rw [isIdle, Bool.or_eq_false_iff, beq_eq_false_iff_ne, beq_eq_false_iff_ne]
  exact ⟨fun e => hempty (String.toList_inj.1 e), fun e => hhere (String.toList_inj.1 e)⟩

include hne

/-- A literal path covers everything when it is empty, otherwise what starts with its pieces. -/
theorem covers_literal_iff (start : List Char) :
    (PathRule.below start).covers (joined "/" names) = true ↔
      start = [] ∨ splitOn '/' start <+: names.map String.toList := by
  have hslash : "/".toList = ['/'] := by decide
  have hpath : (joined "/" names).toList = join ['/'] (names.map String.toList) := by
    rw [joined, String.toList_ofList, hslash]
  have hpieces : ∀ piece ∈ names.map String.toList, '/' ∉ piece := by
    intro piece hp
    obtain ⟨name, hname, rfl⟩ := List.mem_map.1 hp
    exact (hnames name hname).2.2.2
  rw [covers_iff, Covers, hpath, splitOn_prefix_iff (by simpa using hne) hpieces]

/-- A literal entry covers a path when it is tidy and its segments come first in the path; an
entry that is not tidy covers nothing. -/
theorem literal_covers_iff {entry : String} (hentry : hasWildcard entry = false) :
    ∃ rule, PathRule.parse entry = .ok rule ∧
      (rule.covers (joined "/" names) = true ↔ IsTidy entry ∧ segments entry <+: names) := by
  refine ⟨_, parse_literal hentry, ?_⟩
  have hsegments : segments entry <+: names ↔
      (segments entry).map String.toList <+: names.map String.toList :=
    (List.prefix_map_iff_of_injective fun _ _ => String.toList_inj.1).symm
  rw [covers_literal_iff hne hnames, hsegments, IsTidy]
  constructor
  · rintro (hempty | hstart)
    · refine ⟨.inl hempty, ?_⟩
      rw [segments_of_literal_nil hempty]
      exact List.nil_prefix
    · -- the segments of a path say something, so those that come first in it do
      have htidy : ∀ segment ∈ splitOn '/' (literal entry), isIdle segment = false :=
        fun segment hs => isIdle_of_isName hnames segment (hstart.subset hs)
      rw [map_toList_segments htidy]
      exact ⟨.inr htidy, hstart⟩
  · rintro ⟨hempty | htidy, hstart⟩
    · exact .inl hempty
    · rw [map_toList_segments htidy] at hstart
      exact .inr hstart

end

/-- Slashes and `./` at the ends of an entry say nothing. -/
theorem literal_covers_iff_locale :
    hasWildcard "././/src/[locale]//" = false ∧ IsTidy "././/src/[locale]//" ∧
      segments "././/src/[locale]//" = ["src", "[locale]"] ∧
      ∃ rule, PathRule.parse "././/src/[locale]//" = .ok rule ∧
        rule.covers (joined "/" ["src", "[locale]", "page.tsx"]) = true ∧
        rule.covers (joined "/" ["src", "[locale]x", "page.tsx"]) = false := by
  have hentry : hasWildcard "././/src/[locale]//" = false := by decide
  have htidy : IsTidy "././/src/[locale]//" := by decide
  have hsegments : segments "././/src/[locale]//" = ["src", "[locale]"] := by decide
  have hpageNames : ∀ name ∈ ["src", "[locale]", "page.tsx"], IsName name := by decide
  have hlongerNames : ∀ name ∈ ["src", "[locale]x", "page.tsx"], IsName name := by decide
  obtain ⟨rule, hrule, hpage⟩ := literal_covers_iff (by decide) hpageNames hentry
  obtain ⟨other, hother, hlonger⟩ := literal_covers_iff (by decide) hlongerNames hentry
  obtain rfl : rule = other := by
    rw [hrule] at hother
    cases hother
    rfl
  rw [hsegments] at hpage hlonger
  refine ⟨hentry, htidy, hsegments, rule, hrule, hpage.2 ⟨htidy, by decide⟩, ?_⟩
  rw [Bool.eq_false_iff, Ne, hlonger]
  exact fun h => absurd h.2 (by decide)

/-- A literal entry may cover nothing of what its segments lead to. -/
theorem literal_may_cover_nothing :
    ¬ ∀ (entry : String) (names : List String), hasWildcard entry = false →
      ".." ∉ Text.split '/' entry → names ≠ [] → (∀ name ∈ names, IsName name) →
      ∃ rule, PathRule.parse entry = .ok rule ∧
        (rule.covers (joined "/" names) = true ↔ segments entry <+: names) := by
  intro h
  obtain ⟨rule, hrule, hcovers⟩ := h "." ["a.ts"] (by decide) (by decide) (by decide) (by decide)
  rw [parse_literal (by decide)] at hrule
  cases hrule
  exact absurd (hcovers.2 (by decide)) (by decide)

end PathRule

end CatalogAudit
