/-
  CatalogAudit.Proofs.PathRule.Covering — what a rule covers, and what an entry of a config.

  A literal path covers itself and what lies below it, and the empty one everything; a glob
  covers what its tokens match (`covers_iff`). An entry covers what its rule does, and a faulty
  entry nothing.
-/

import CatalogAudit.PathRule

namespace CatalogAudit

namespace PathRule

def Covers : PathRule → String → Prop
  | .glob tokens, path => Glob.matchTokens tokens path.toList = true
  | .below start, path =>
    start = [] ∨ path.toList = start ∨ ∃ rest, path.toList = start ++ '/' :: rest

/-- Whether an entry of a config covers a path. -/
def EntryCovers (entry path : String) : Prop :=
  ∃ rule, PathRule.parse entry = .ok rule ∧ rule.Covers path

theorem after?_eq_some_iff {start cs rest : List Char} :
    after? start cs = some rest ↔ cs = start ++ rest := by
  induction start generalizing cs with
  | nil => simp [after?, eq_comm]
  | cons s start ih =>
    cases cs with
    | nil => simp [after?]
    | cons c cs =>
      rw [after?, List.cons_append, List.cons.injEq]
      by_cases h : s = c
      · simp [h, ih]
      · simp [h, Ne.symm h]

theorem covers_iff {rule : PathRule} {path : String} :
    rule.covers path = true ↔ rule.Covers path := by
  cases rule with
  | glob tokens => rw [covers, Glob.matchesText_eq, Covers]
  | below start =>
    cases start with
    | nil => simp [covers, Covers]
    | cons s start =>
      have hrest : ∀ rest, path.toList = s :: start ++ rest ↔
          after? (s :: start) path.toList = some rest := fun rest => after?_eq_some_iff.symm
      have hitself : path.toList = s :: start ↔ after? (s :: start) path.toList = some [] := by
        rw [← hrest, List.append_nil]
      rw [covers, Covers, hitself]
      · simp only [hrest]
        cases after? (s :: start) path.toList with
        | none => simp
        | some rest => cases rest <;> simp
      · simp

end PathRule

end CatalogAudit
