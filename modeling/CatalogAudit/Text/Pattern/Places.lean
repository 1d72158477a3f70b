/-
  CatalogAudit.Text.Pattern.Places — a place in a text and all places after it.

  The places of a text of `n` characters are `n + 1`: one before each character and the
  end. The place with number `i` is `i` characters further on (`getElem?_places`).
-/

import CatalogAudit.Text.Pattern

namespace CatalogAudit.Text.Cursor

/-- The places found so far, in front of those from here on. -/
def placesFrom (found : List Cursor) (before : List Char) : (after : List Char) → List Cursor
  | [] => (⟨before, []⟩ :: found).reverse
  | c :: cs => placesFrom (⟨before, c :: cs⟩ :: found) (c :: before) cs

/-- The place itself and all places after it, the end of the text last. -/
def places (c : Cursor) : List Cursor := placesFrom [] c.before c.after

theorem placesFrom_eq (found : List Cursor) (before after : List Char) :
    placesFrom found before after = found.reverse ++ placesFrom [] before after := by
  induction after generalizing found before with
  | nil => simp [placesFrom]
  | cons c cs ih => rw [placesFrom, ih, placesFrom, ih [_]]; simp

theorem places_nil (before : List Char) :
    places ⟨before, []⟩ = [⟨before, []⟩] := rfl

theorem places_cons (before : List Char) (c : Char) (cs : List Char) :
    places ⟨before, c :: cs⟩ = ⟨before, c :: cs⟩ :: places ⟨c :: before, cs⟩ := by
  rw [places, placesFrom, placesFrom_eq]
  rfl

theorem exists_places_eq (c : Cursor) : ∃ ds, c.places = c :: ds := by
  obtain ⟨before, after⟩ := c
  cases after with
  | nil => exact ⟨_, places_nil _⟩
  | cons c cs => exact ⟨_, places_cons ..⟩

theorem getElem?_places (c : Cursor) (i : Nat) :
    c.places[i]? = if i ≤ c.after.length then some (c.advance i) else none := by
  obtain ⟨before, after⟩ := c
  induction after generalizing before i with
  | nil => cases i <;> simp [places_nil, advance]
  | cons c cs ih =>
    rw [places_cons]
    cases i with
    | zero => simp [advance]
    | succ i => simp [ih, advance]

theorem length_places (c : Cursor) : c.places.length = c.after.length + 1 := by
  obtain ⟨before, after⟩ := c
  induction after generalizing before with
  | nil => rfl
  | cons c cs ih => simp [places_cons, ih]

theorem advance_advance (c : Cursor) (i n : Nat) :
    (c.advance i).advance n = c.advance (i + n) := by
  simp [advance, List.take_add]

end CatalogAudit.Text.Cursor
