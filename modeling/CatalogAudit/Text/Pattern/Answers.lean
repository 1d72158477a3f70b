/-
  CatalogAudit.Text.Pattern.Answers — a pattern matched at all places of a text at once.

  To try a pattern anew at each place is slow where it holds a stretch: every try may run
  over the rest of the text, and for each end of the stretch go on from there. Here the
  answers at all places are found together, from the end of the pattern and of the text, so
  that what comes after a stretch is answered for each place before the stretch is.

  The answers are those of matching at each place: `answersFrom_eq`.
-/

import CatalogAudit.Text.Pattern.Places

namespace CatalogAudit.Text.Pattern

/-- A way through a pattern: its fields, and how many characters are left after it. -/
structure Answer where
  fields : List (List Char)
  left : Nat
  deriving DecidableEq, Repr

def Answer.withFields (fields : List (List Char)) (a : Answer) : Answer :=
  { a with fields := fields ++ a.fields }

section
variable {β γ : Type}

/-- What holds `n` characters further on; nothing does past the end. -/
def ahead (n : Nat) (nexts : List (Option β)) : List (Option β) :=
  nexts.drop n ++ List.replicate n none

/-- Goes through the places from the last one back: `step` gets the character at a place,
what `nexts` says there and what was found one place later. -/
def fromEnd (last : β → γ) (step : Char → β → γ → γ) (places : List Cursor) (nexts : List β) :
    List γ :=
  (places.zip nexts).foldr
    (fun (c, here) found =>
      (match c.after, found with
        | x :: _, later :: _ => step x here later
        | _, _ => last here) :: found)
    []

/-- The characters of the class that come next, with what `nexts` says after them. -/
def runs (p : Char → Bool) : (places : List Cursor) → (nexts : List β) → List (List Char × β) :=
  fromEnd (fun here => ([], here)) fun x here later =>
    if p x then (x :: later.1, later.2) else ([], here)

end

/-- The answers at all places, where `nexts` has those of what comes after the pattern. -/
def answers : Pattern → (places : List Cursor) → (nexts : List (Option Answer)) →
    List (Option Answer)
  | .nothing, _, nexts => nexts
  | .text s, places, nexts =>
    places.zipWith (fun c a => if s.isPrefixOf c.after then a else none) (ahead s.length nexts)
  | .one p, places, nexts =>
    places.zipWith (fun c a => if c.after.head?.any p then a else none) (ahead 1 nexts)
  | .span p, places, nexts => (runs p places nexts).map (·.2)
  | .field p, places, nexts =>
    (runs p places nexts).map fun (run, a) =>
      if run.isEmpty then none else a.map (·.withFields [run])
  | .stretch p, places, nexts =>
    fromEnd id (fun x here later => if p x then later.orElse fun _ => here else here) places nexts
  | .edge p, places, nexts => places.zipWith (fun c a => if c.isEdge p then a else none) nexts
  | .seq a b, places, nexts => a.answers places (b.answers places nexts)
  | .alt a b, places, nexts =>
    (a.answers places nexts).zipWith (fun x y => x.orElse fun _ => y) (b.answers places nexts)

/-- How many characters are left at each place. -/
def lefts (places : List Cursor) : List Nat :=
  fromEnd (fun _ => 0) (fun _ _ left => left + 1) places places

/-- The answers at all the places. -/
def answersFrom (p : Pattern) (c : Cursor) : List (Option Answer) :=
  p.answers c.places ((lefts c.places).map fun left => some ⟨[], left⟩)

/-! ## The parts of an answer -/

section
variable {β γ : Type}

theorem fromEnd_places {last : β → γ} {step : Char → β → γ → γ} {f : Cursor → β} {g : Cursor → γ}
    (hlast : ∀ before, g ⟨before, []⟩ = last (f ⟨before, []⟩))
    (hstep : ∀ before x cs,
      g ⟨before, x :: cs⟩ = step x (f ⟨before, x :: cs⟩) (g ⟨x :: before, cs⟩)) (c : Cursor) :
    fromEnd last step c.places (c.places.map f) = c.places.map g := by
  obtain ⟨before, after⟩ := c
  induction after generalizing before with
  | nil => simp [Cursor.places_nil, fromEnd, hlast]
  | cons x cs ih =>
    obtain ⟨ds, hd⟩ := Cursor.exists_places_eq ⟨x :: before, cs⟩
    have := ih (x :: before)
    simp only [fromEnd] at this ⊢
    rw [Cursor.places_cons, List.map_cons, List.zip_cons_cons, List.foldr_cons, this, hd]
    simp [hstep]

theorem zipWith_ahead {f : Cursor → Option β} {k : Cursor → Option β → γ} (n : Nat) (c : Cursor) :
    c.places.zipWith k (ahead n (c.places.map f)) =
      c.places.map fun d => k d (if n ≤ d.after.length then f (d.advance n) else none) := by
  apply List.ext_getElem?
  intro i
  by_cases hi : i ≤ c.after.length
  · have hk : (ahead n (c.places.map f))[i]? =
        some (if n ≤ (c.advance i).after.length then f ((c.advance i).advance n) else none) := by
      simp only [ahead, List.getElem?_append, List.getElem?_drop, List.getElem?_map,
        Cursor.getElem?_places, List.length_drop, List.length_map, Cursor.length_places,
        Cursor.advance_advance, List.getElem?_replicate]
      by_cases hn : i + n ≤ c.after.length
      · have h1 : i < c.after.length + 1 - n := by omega
        have h2 : n ≤ c.after.length - i := by omega
        simp [h1, h2, Nat.add_comm n i, hn, Cursor.advance]
      · have h1 : ¬ i < c.after.length + 1 - n := by omega
        have h2 : ¬ n ≤ c.after.length - i := by omega
        have h3 : i - (c.after.length + 1 - n) < n := by omega
        simp [h1, h2, h3, Cursor.advance]
    simp [List.getElem?_zipWith, Cursor.getElem?_places, hi, hk]
  · simp [List.getElem?_zipWith, Cursor.getElem?_places, hi]

theorem runs_places (p : Char → Bool) (f : Cursor → β) (c : Cursor) :
    runs p c.places (c.places.map f) = c.places.map fun d => (d.after.takeWhile p, f (d.skip p)) :=
  fromEnd_places (fun _ => by simp [Cursor.skip])
    (fun _ x _ => by by_cases h : p x <;> simp [Cursor.skip, h]) c

theorem lefts_places (c : Cursor) : lefts c.places = c.places.map (·.after.length) := by
  have h : fromEnd (fun _ => 0) (fun _ _ left => left + 1) c.places (c.places.map id) =
      c.places.map (·.after.length) := fromEnd_places (fun _ => rfl) (fun _ _ _ => rfl) c
  simpa [lefts] using h

end

section
variable {α β : Type}

theorem map_orElse (g : α → β) (x : Option α) (f : Unit → Option α) :
    (x.orElse f).map g = (x.map g).orElse fun _ => (f ()).map g := by
  cases x <;> rfl

theorem matchStretch_map {p : Char → Bool} {next : Cursor → Option α} (g : α → β)
    (before after : List Char) :
    matchStretch p (fun d => (next d).map g) before after =
      (matchStretch p next before after).map g := by
  induction after generalizing before with
  | nil => rfl
  | cons c cs ih =>
    rw [matchStretch, matchStretch]
    split
    · rw [ih, map_orElse]
    · rfl

theorem matchThen_map {p : Pattern} (g : α → β) (next : List (List Char) → Cursor → Option α)
    (c : Cursor) :
    p.matchThen c (fun fields d => (next fields d).map g) = (p.matchThen c next).map g := by
  induction p generalizing c next with
  | nothing => rfl
  | text s => rw [matchThen, matchThen]; split <;> rfl
  | one p => rw [matchThen, matchThen]; split <;> rfl
  | span p => rfl
  | field p => rw [matchThen, matchThen]; split <;> rfl
  | stretch p => exact matchStretch_map g ..
  | edge p => rw [matchThen, matchThen]; split <;> rfl
  | seq a b iha ihb => simp only [matchThen, ihb, iha]
  | alt a b iha ihb => simp only [matchThen, iha, ihb, map_orElse]

end

/-! ## All answers -/

/-- What matching answers when `rest` answers for what comes after the pattern. -/
def answer (p : Pattern) (rest : Cursor → Option Answer) (c : Cursor) : Option Answer :=
  p.matchThen c fun fields d => (rest d).map (·.withFields fields)

theorem withFields_nil (a : Answer) : a.withFields [] = a := rfl

theorem withFields_withFields (fields more : List (List Char)) (a : Answer) :
    (a.withFields more).withFields fields = a.withFields (fields ++ more) := by
  simp [Answer.withFields]

theorem answer_seq (a b : Pattern) (rest : Cursor → Option Answer) :
    (Pattern.seq a b).answer rest = a.answer (b.answer rest) := by
  funext c
  simp only [answer, matchThen, ← matchThen_map, Option.map_map, Function.comp_def,
    withFields_withFields]

theorem answers_places (p : Pattern) (rest : Cursor → Option Answer) (c : Cursor) :
    p.answers c.places (c.places.map rest) = c.places.map (p.answer rest) := by
  induction p generalizing rest with
  | nothing => simp [answers, answer, matchThen, withFields_nil]
  | text s =>
    rw [answers, zipWith_ahead]
    apply List.map_congr_left
    intro d _
    simp only [answer, matchThen, withFields_nil, Option.map_id']
    split
    · next h =>
      have := (List.isPrefixOf_iff_prefix.1 h).length_le
      simp [this]
    · rfl
  | one p =>
    rw [answers, zipWith_ahead]
    apply List.map_congr_left
    intro d _
    simp only [answer, matchThen, withFields_nil, Option.map_id']
    split
    · next h =>
      have : 1 ≤ d.after.length := by
        cases hd : d.after <;> simp_all
      simp [this]
    · rfl
  | span p => simp [answers, runs_places, answer, matchThen, withFields_nil, Function.comp_def]
  | field p =>
    rw [answers, runs_places, List.map_map]
    apply List.map_congr_left
    intro d _
    simp only [answer, matchThen, Function.comp_def]
    cases hd : d.after with
    | nil => simp
    | cons x cs => by_cases h : p x <;> simp [h]
  | stretch p =>
    rw [answers]
    refine fromEnd_places ?_ ?_ c
    · intro before
      simp [answer, matchThen, matchStretch, withFields_nil]
    · intro before x cs
      simp [answer, matchThen, matchStretch, withFields_nil]
  | edge p =>
    simp [answers, answer, matchThen, withFields_nil, List.zipWith_map_right, List.zipWith_self]
  | seq a b iha ihb => rw [answers, ihb, iha, answer_seq]
  | alt a b iha ihb =>
    simp [answers, iha, ihb, answer, matchThen, List.zipWith_map, List.zipWith_self]

/-- A match as an answer. -/
def Answer.ofMatch (m : List (List Char) × Cursor) : Answer := ⟨m.1, m.2.after.length⟩

theorem answersFrom_eq (p : Pattern) (c : Cursor) :
    p.answersFrom c = c.places.map fun d => (p.match? d).map Answer.ofMatch := by
  rw [answersFrom, lefts_places, List.map_map, answers_places]
  apply List.map_congr_left
  intro d _
  simp [answer, match?, ← matchThen_map, Answer.ofMatch, Answer.withFields]

end CatalogAudit.Text.Pattern
