/-
  CatalogAudit.Proofs.Report.Items — the items that the report of a check lists.

  A report is asked three things: whether anything is wrong, how much is, and what. `issues`
  is the list of all that is wrong, in the order in which it is reported. The verdict says
  whether the list is empty (`hasIssues_iff`), the count how long it is (`length_issues`), and
  the text has one item line for each of its entries (`itemLines_consistency`).

  A line is an item by how it starts, so it matters what else stands in the report. Whatever
  the locales are called, a heading starts with a mark, and so does the line that stands in
  the place of an empty list: `itemLines_listing` is the one argument for all three parts.
-/

import CatalogAudit.Report
import Mathlib.Algebra.BigOperators.Group.List.Basic

namespace CatalogAudit

/-! ## What is wrong -/

namespace Consistency

/-- The namespaces that the locales lack, then the keys that they lack, then the keys of one
locale that another one lacks. -/
def issues (r : Consistency) : List String :=
  r.gaps.flatMap (·.namespaces) ++ r.gaps.flatMap (·.keys) ++ r.exclusive.flatMap (·.keys)

/-- The count goes locale by locale, the list first through the namespaces of all locales. -/
theorem length_issues (r : Consistency) : r.issues.length = r.issueCount := by
  have hgaps : (r.gaps.map fun g => g.namespaces.length + g.keys.length).sum =
      (r.gaps.flatMap (·.namespaces)).length + (r.gaps.flatMap (·.keys)).length := by
    rw [List.sum_map_add, List.length_flatMap, List.length_flatMap]
  have hexclusive : (r.exclusive.map fun e => e.keys.length).sum =
      (r.exclusive.flatMap (·.keys)).length := List.length_flatMap.symm
  rw [issues, List.length_append, List.length_append, ← hgaps, ← hexclusive]
  rfl

theorem issues_eq_nil_iff {r : Consistency} :
    r.issues = [] ↔
      (∀ g ∈ r.gaps, g.namespaces = [] ∧ g.keys = []) ∧ ∀ e ∈ r.exclusive, e.keys = [] := by
  unfold issues
  rw [List.append_eq_nil_iff, List.append_eq_nil_iff, List.flatMap_eq_nil_iff,
    List.flatMap_eq_nil_iff, List.flatMap_eq_nil_iff]
  constructor
  · intro h
    obtain ⟨⟨hnamespaces, hkeys⟩, hexclusive⟩ := h
    exact ⟨fun g hg => ⟨hnamespaces g hg, hkeys g hg⟩, hexclusive⟩
  · intro h
    obtain ⟨hgaps, hexclusive⟩ := h
    exact ⟨⟨fun g hg => (hgaps g hg).1, fun g hg => (hgaps g hg).2⟩, hexclusive⟩

theorem hasIssues_iff {r : Consistency} : r.hasIssues = true ↔ r.issues ≠ [] := by
  rw [← Bool.not_eq_false, ne_eq, issues_eq_nil_iff, not_iff_not, hasIssues,
    Bool.or_eq_false_iff, List.any_eq_false, List.any_eq_false]
  simp

end Consistency

/-! ## What is listed -/

theorem Log.lines_infos (messages : List String) : (infos messages).lines = messages := by
  rw [infos, lines, List.map_map]
  exact List.map_id messages

namespace Report

/-- A line for one thing in a list. -/
def isItem (line : String) : Bool := "  - ".toList.isPrefixOf line.toList

def itemLines (lines : List String) : List String := lines.filter isItem

theorem itemLines_append (xs ys : List String) :
    itemLines (xs ++ ys) = itemLines xs ++ itemLines ys := List.filter_append xs ys

theorem itemLines_flatMap {α : Type} (xs : List α) (f : α → List String) :
    itemLines (xs.flatMap f) = xs.flatMap fun x => itemLines (f x) :=
  List.filter_flatMap

theorem itemLines_items (xs : List String) : itemLines (items xs) = items xs := by
  refine List.filter_eq_self.2 ?_
  intro line hline
  obtain ⟨x, -, rfl⟩ := List.mem_map.1 hline
  rw [isItem, List.isPrefixOf_iff_prefix, String.toList_append]
  exact List.prefix_append _ _

/-- A line that starts with a mark is no item, whatever comes after the mark. -/
theorem isItem_marked {mark : String} (h : mark.toList.head?.any (· != ' ') = true)
    (rest : String) : isItem (mark ++ rest) = false := by
  rw [Option.any_eq_true] at h
  obtain ⟨c, hc, hmark⟩ := h
  obtain ⟨cs, hcs⟩ := List.head?_eq_some_iff.1 hc
  have hblank : ¬ ' ' = c := by
    intro e
    rw [← e] at hmark
    exact absurd hmark (by decide)
  rw [isItem, String.toList_append, hcs]
  simp [List.isPrefixOf, hblank]

theorem itemLines_marked {mark : String} (h : mark.toList.head?.any (· != ' ') = true)
    (rest : String) : itemLines [mark ++ rest] = [] := by
  rw [itemLines, List.filter_cons_of_neg (by simp [isItem_marked h]), List.filter_nil]

/-- A list under its heading, or what is said where there is nothing to list. -/
theorem itemLines_listing {xs heading quiet : List String} (hheading : itemLines heading = [])
    (hquiet : itemLines quiet = []) :
    itemLines (if xs.isEmpty then quiet else heading ++ items xs) = items xs := by
  by_cases h : xs = []
  · subst h
    exact hquiet
  · rw [if_neg (by simpa using h), itemLines_append, hheading, itemLines_items, List.nil_append]

theorem itemLines_blank (lines : List String) : itemLines ("" :: lines) = itemLines lines :=
  List.filter_cons_of_neg (by decide)

/-! ## The parts of the report -/

theorem itemLines_heading {mark : String} (h : mark.toList.head?.any (· != ' ') = true)
    (locale ending : String) : itemLines [mark ++ " " ++ locale ++ ending] = [] := by
  rw [String.append_assoc, String.append_assoc]
  exact itemLines_marked h _

theorem itemLines_missingNamespaces (g : Gaps) :
    itemLines (missingNamespaces g) = items g.namespaces := by
  have hheading : itemLines [crossMark ++ " " ++ g.locale ++ " is missing namespaces:"] = [] :=
    itemLines_heading (by decide) _ _
  have hquiet : itemLines [checkMark ++ " " ++ g.locale ++ " contains all used namespaces"] = [] :=
    itemLines_heading (by decide) _ _
  exact itemLines_listing hheading hquiet

theorem itemLines_missingKeys (g : Gaps) : itemLines (missingKeys g) = items g.keys := by
  have hheading : itemLines [crossMark ++ " " ++ g.locale ++ " is missing keys:"] = [] :=
    itemLines_heading (by decide) _ _
  have hquiet : itemLines [checkMark ++ " " ++ g.locale ++ " contains all used keys"] = [] :=
    itemLines_heading (by decide) _ _
  rw [missingKeys, itemLines_blank]
  exact itemLines_listing hheading hquiet

theorem itemLines_exclusiveKeys (e : Exclusive) : itemLines (exclusiveKeys e) = items e.keys := by
  have hheading : itemLines ["", noticeMark ++ " Keys only in " ++ e.locale ++ " (not in " ++
      e.other ++ "):"] = [] := by
    rw [itemLines_blank]
    simp only [String.append_assoc]
    exact itemLines_marked (by decide) _
  exact itemLines_listing hheading rfl

theorem itemLines_consistency (r : Consistency) :
    itemLines (consistency r).lines = items r.issues := by
  have hstart : itemLines ["", "=== Translation Check Report ===", ""] = [] := by decide
  have hend : itemLines endOfReport = [] := by decide
  rw [consistency, Log.lines_infos]
  simp only [itemLines_append, itemLines_flatMap, itemLines_missingNamespaces,
    itemLines_missingKeys, itemLines_exclusiveKeys, hstart, hend, List.nil_append, List.append_nil]
  simp only [items, Consistency.issues, List.map_append, List.map_flatMap]

/-- The verdict, the count and the report say the same: something is wrong exactly when the
count is not zero, and the report lists as many items as are counted. They are the missing
namespaces of one locale after the other, then the missing keys, then the exclusive keys of
one pair of locales after the other. -/
theorem report_lists_what_is_counted (r : Consistency) :
    (r.hasIssues = true ↔ 0 < r.issueCount) ∧
    ((consistency r).lines.filter isItem).length = r.issueCount ∧
    (consistency r).lines.filter isItem =
      (r.gaps.flatMap (·.namespaces) ++ r.gaps.flatMap (·.keys) ++
        r.exclusive.flatMap (·.keys)).map fun name => "  - " ++ name := by
  have hlines : (consistency r).lines.filter isItem = items r.issues := itemLines_consistency r
  refine ⟨?_, ?_, hlines⟩
  · rw [← Consistency.length_issues, List.length_pos_iff]
    exact Consistency.hasIssues_iff
  · rw [hlines, items, List.length_map, Consistency.length_issues]

/-- A locale that is called like an item does not make one. -/
example :
    itemLines (consistency ⟨[⟨"  - en", ["about"], []⟩, ⟨"zh", [], ["home.hero"]⟩],
      [⟨"  - en", "zh", ["home.hero"]⟩, ⟨"zh", "  - en", []⟩]⟩).lines =
      ["  - about", "  - home.hero", "  - home.hero"] := by
  decide +kernel

end Report

end CatalogAudit
