/-
  CatalogAudit.Text.Pattern — shapes that are searched for in a text.

  A pattern is matched from a place in a text. A span takes all characters of a class that
  come next, a stretch any number of them: as many as possible first, then one less at a
  time. Of two alternatives the first is tried first, and the first way through the whole
  pattern counts. The fields of a match are the texts of its kept spans, in order.

  `Matches` says what a pattern accepts without saying which way is tried first; what is
  found is such a match (`match?_sound`).
-/

namespace CatalogAudit.Text

/-- A place in a text: the text before it, reversed, and the text after it. -/
structure Cursor where
  before : List Char
  after : List Char
  deriving DecidableEq, Repr

/-- Past the next `n` characters. -/
def Cursor.advance (n : Nat) (c : Cursor) : Cursor :=
  ⟨(c.after.take n).reverse ++ c.before, c.after.drop n⟩

/-- Past all the characters of a class that come next. -/
def Cursor.skip (p : Char → Bool) (c : Cursor) : Cursor :=
  ⟨(c.after.takeWhile p).reverse ++ c.before, c.after.dropWhile p⟩

/-- Whether a run of characters of a class starts or ends here. -/
def Cursor.isEdge (p : Char → Bool) (c : Cursor) : Bool :=
  c.before.head?.any p != c.after.head?.any p

inductive Pattern where
  | nothing
  /-- The characters of a text, one after the other. -/
  | text (s : List Char)
  | one (p : Char → Bool)
  /-- All characters of a class that come next, perhaps none. -/
  | span (p : Char → Bool)
  /-- All characters of a class that come next, at least one, kept as a field. -/
  | field (p : Char → Bool)
  /-- Any number of characters of a class. -/
  | stretch (p : Char → Bool)
  /-- A place where a run of characters of a class starts or ends. -/
  | edge (p : Char → Bool)
  | seq (a b : Pattern)
  | alt (a b : Pattern)

namespace Pattern

def char (c : Char) : Pattern := .text [c]

def all (ps : List Pattern) : Pattern := ps.foldr .seq .nothing

def optional (p : Pattern) : Pattern := .alt p .nothing

/-! ## Matching -/

section
variable {α : Type}

/-- Goes on after the longest stretch first, then after shorter ones down to none. -/
def matchStretch (p : Char → Bool) (next : Cursor → Option α) (before : List Char) :
    (after : List Char) → Option α
  | [] => next ⟨before, []⟩
  | c :: cs =>
    if p c then
      (matchStretch p next (c :: before) cs).orElse fun _ => next ⟨before, c :: cs⟩
    else next ⟨before, c :: cs⟩

/-- Matches at the cursor and goes on with `next`, which gets the fields and the place after. -/
def matchThen : Pattern → Cursor → (next : List (List Char) → Cursor → Option α) → Option α
  | .nothing, c, next => next [] c
  | .text s, c, next => if s.isPrefixOf c.after then next [] (c.advance s.length) else none
  | .one p, c, next => if c.after.head?.any p then next [] (c.advance 1) else none
  | .span p, c, next => next [] (c.skip p)
  | .field p, c, next =>
    if c.after.head?.any p then next [c.after.takeWhile p] (c.skip p) else none
  | .stretch p, c, next => matchStretch p (next []) c.before c.after
  | .edge p, c, next => if c.isEdge p then next [] c else none
  | .seq a b, c, next =>
    a.matchThen c fun fields c => b.matchThen c fun more c => next (fields ++ more) c
  | .alt a b, c, next => (a.matchThen c next).orElse fun _ => b.matchThen c next

end

def match? (p : Pattern) (c : Cursor) : Option (List (List Char) × Cursor) :=
  p.matchThen c fun fields c => some (fields, c)

/-! ## What a pattern accepts -/

inductive Matches : Pattern → Cursor → List (List Char) → Cursor → Prop
  | nothing {c} : Matches .nothing c [] c
  | text {s before cs} : Matches (.text s) ⟨before, s ++ cs⟩ [] ⟨s.reverse ++ before, cs⟩
  | one {p x before cs} : p x = true → Matches (.one p) ⟨before, x :: cs⟩ [] ⟨x :: before, cs⟩
  | span {p c} : Matches (.span p) c [] (c.skip p)
  | field {p c} : c.after.head?.any p = true →
      Matches (.field p) c [c.after.takeWhile p] (c.skip p)
  | stretch {p xs before cs} : (∀ x ∈ xs, p x = true) →
      Matches (.stretch p) ⟨before, xs ++ cs⟩ [] ⟨xs.reverse ++ before, cs⟩
  | edge {p c} : c.isEdge p = true → Matches (.edge p) c [] c
  | seq {a b c d e fields more} : Matches a c fields d → Matches b d more e →
      Matches (.seq a b) c (fields ++ more) e
  | left {a b c d fields} : Matches a c fields d → Matches (.alt a b) c fields d
  | right {a b c d fields} : Matches b c fields d → Matches (.alt a b) c fields d

section
variable {α : Type}

theorem orElse_cases {x : Option α} {f : Unit → Option α} {a : α} (h : x.orElse f = some a) :
    x = some a ∨ f () = some a := by
  cases x with
  | none => exact .inr h
  | some b => exact .inl h

theorem isSome_orElse {x : Option α} {f : Unit → Option α} (h : x.isSome ∨ (f ()).isSome) :
    (x.orElse f).isSome := by
  cases x with
  | none => simpa using h
  | some b => rfl

theorem matchStretch_sound {p : Char → Bool} {next : Cursor → Option α} {a : α}
    {before after : List Char} (h : matchStretch p next before after = some a) :
    ∃ xs cs, after = xs ++ cs ∧ (∀ x ∈ xs, p x = true) ∧
      next ⟨xs.reverse ++ before, cs⟩ = some a := by
  induction after generalizing before with
  | nil => exact ⟨[], [], rfl, by simp, h⟩
  | cons c cs ih =>
    rw [matchStretch] at h
    split at h
    · next hc =>
      rcases orElse_cases h with h | h
      · obtain ⟨xs, ds, rfl, hxs, hn⟩ := ih h
        exact ⟨c :: xs, ds, rfl, by simpa [hc] using hxs, by simpa using hn⟩
      · exact ⟨[], c :: cs, rfl, by simp, h⟩
    · exact ⟨[], c :: cs, rfl, by simp, h⟩

theorem matchThen_sound {p : Pattern} {c : Cursor} {a : α}
    {next : List (List Char) → Cursor → Option α} (h : p.matchThen c next = some a) :
    ∃ fields d, Matches p c fields d ∧ next fields d = some a := by
  induction p generalizing c next with
  | nothing => exact ⟨[], c, .nothing, h⟩
  | text s =>
    obtain ⟨before, after⟩ := c
    simp only [matchThen, Option.ite_none_right_eq_some] at h
    obtain ⟨cs, rfl⟩ := List.isPrefixOf_iff_prefix.1 h.1
    exact ⟨[], _, .text, by simpa [Cursor.advance] using h.2⟩
  | one p =>
    obtain ⟨before, after⟩ := c
    cases after with
    | nil => simp [matchThen] at h
    | cons y cs =>
      simp only [matchThen, Option.ite_none_right_eq_some] at h
      exact ⟨[], _, .one (by simpa using h.1), by simpa [Cursor.advance] using h.2⟩
  | span p => exact ⟨[], _, .span, h⟩
  | field p =>
    simp only [matchThen, Option.ite_none_right_eq_some] at h
    exact ⟨_, _, .field h.1, h.2⟩
  | stretch p =>
    obtain ⟨before, after⟩ := c
    obtain ⟨xs, cs, rfl, hxs, hn⟩ := matchStretch_sound h
    exact ⟨[], _, .stretch hxs, hn⟩
  | edge p =>
    simp only [matchThen, Option.ite_none_right_eq_some] at h
    exact ⟨[], c, .edge h.1, h.2⟩
  | seq a b iha ihb =>
    obtain ⟨fields, d, ha, h⟩ := iha h
    obtain ⟨more, e, hb, h⟩ := ihb h
    exact ⟨fields ++ more, e, .seq ha hb, h⟩
  | alt a b iha ihb =>
    rcases orElse_cases h with h | h
    · obtain ⟨fields, d, ha, h⟩ := iha h
      exact ⟨fields, d, .left ha, h⟩
    · obtain ⟨fields, d, hb, h⟩ := ihb h
      exact ⟨fields, d, .right hb, h⟩

theorem matchStretch_complete {p : Char → Bool} {next : Cursor → Option α}
    {before xs cs : List Char} (hxs : ∀ x ∈ xs, p x = true)
    (h : (next ⟨xs.reverse ++ before, cs⟩).isSome) :
    (matchStretch p next before (xs ++ cs)).isSome := by
  induction xs generalizing before with
  | nil =>
    simp only [List.reverse_nil, List.nil_append] at h ⊢
    cases cs with
    | nil => exact h
    | cons c cs =>
      rw [matchStretch]
      split
      · exact isSome_orElse (.inr h)
      · exact h
  | cons x xs ih =>
    simp only [List.cons_append, matchStretch, hxs x (List.mem_cons_self ..), if_true]
    exact isSome_orElse (.inl
      (ih (fun y hy => hxs y (List.mem_cons_of_mem _ hy)) (by simpa using h)))

end

/-- A match that is found is one that the pattern accepts. -/
theorem match?_sound {p : Pattern} {c d : Cursor} {fields : List (List Char)}
    (h : p.match? c = some (fields, d)) : Matches p c fields d := by
  obtain ⟨fields', d', hm, h⟩ := matchThen_sound h
  simp only [Option.some.injEq, Prod.mk.injEq] at h
  exact h.1 ▸ h.2 ▸ hm

end Pattern

end CatalogAudit.Text
