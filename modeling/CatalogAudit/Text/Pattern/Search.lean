/-
  CatalogAudit.Text.Pattern.Search — the matches of a pattern in a text.

  A search goes through a text from left to right and goes on after each match: `search`
  says so place by place. `findAll` picks the same matches (`findAll_eq`) from the answers
  at all places.
-/

import CatalogAudit.Text.Pattern.Answers

namespace CatalogAudit.Text.Pattern

/-- A match in a text: what was before it, reversed, and its fields. -/
structure Match where
  before : List Char
  fields : List (List Char)
  deriving DecidableEq, Repr

/-- All matches from left to right; the first `skip` characters belong to an earlier match. -/
def search (p : Pattern) (skip : Nat) (before : List Char) : (after : List Char) → List Match
  | [] => []
  | c :: cs =>
    match skip with
    | skip + 1 => p.search skip (c :: before) cs
    | 0 =>
      match p.match? ⟨before, c :: cs⟩ with
      | some (fields, stop) =>
        ⟨before, fields⟩ :: p.search (cs.length - stop.after.length) (c :: before) cs
      | none => p.search 0 (c :: before) cs

/-- The first match from a place on. -/
def findFrom? (p : Pattern) (before : List Char) : (after : List Char) → Option Match
  | [] => none
  | c :: cs =>
    match p.match? ⟨before, c :: cs⟩ with
    | some (fields, _) => some ⟨before, fields⟩
    | none => p.findFrom? (c :: before) cs

def find? (p : Pattern) (s : List Char) : Option Match := p.findFrom? [] s

/-! ## Searching all places at once -/

/-- The matches that count among the answers at the places, `left` being the characters
left at the first one. -/
def pick : (left skip : Nat) → List (Cursor × Option Answer) → List Match
  | left + 1, skip + 1, _ :: rest => pick left skip rest
  | left + 1, 0, (c, some a) :: rest => ⟨c.before, a.fields⟩ :: pick left (left - a.left) rest
  | left + 1, 0, (_, none) :: rest => pick left 0 rest
  | _, _, _ => []

/-- All matches in a text, from left to right. -/
def findAll (p : Pattern) (s : List Char) : List Match :=
  let c : Cursor := ⟨[], s⟩
  pick s.length 0 (c.places.zip (p.answersFrom c))

/-- The fields of the match at each place that has one, also within other matches. -/
def fieldsEverywhere (p : Pattern) (s : List Char) : List (List (List Char)) :=
  (p.answersFrom ⟨[], s⟩).filterMap (·.map (·.fields))

/-! ## The same matches -/

theorem pick_places (p : Pattern) (skip : Nat) (before after : List Char) :
    let c : Cursor := ⟨before, after⟩
    pick after.length skip (c.places.zip (c.places.map fun d => (p.match? d).map Answer.ofMatch)) =
      p.search skip before after := by
  induction after generalizing skip before with
  | nil => cases skip <;> simp [Cursor.places_nil, pick, search]
  | cons x cs ih =>
    simp only [Cursor.places_cons, List.map_cons, List.zip_cons_cons, List.length_cons]
    cases skip with
    | succ skip => exact ih skip (x :: before)
    | zero =>
      rw [search]
      cases h : p.match? ⟨before, x :: cs⟩ with
      | none => exact ih 0 (x :: before)
      | some m =>
        simp only [Option.map_some, pick]
        exact congrArg _ (ih _ (x :: before))

theorem findAll_eq (p : Pattern) (s : List Char) : p.findAll s = p.search 0 [] s := by
  simp only [findAll, answersFrom_eq]
  exact pick_places p 0 [] s

theorem fieldsEverywhere_eq (p : Pattern) (s : List Char) :
    p.fieldsEverywhere s =
      (Cursor.places ⟨[], s⟩).filterMap fun c => (p.match? c).map (·.1) := by
  simp [fieldsEverywhere, answersFrom_eq, List.filterMap_map, Function.comp_def, Answer.ofMatch]

end CatalogAudit.Text.Pattern
