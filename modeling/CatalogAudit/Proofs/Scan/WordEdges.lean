/-
  CatalogAudit.Proofs.Scan.WordEdges — calls of word characters are calls of whole words.

  The shapes of lookups ask for word characters and do not ask where their word starts. They find
  the same calls as shapes that do (`wholeCall`, `findAll_wordCall`). After a match the search goes
  on after a closing parenthesis, and what would match within a word would have matched at its
  start, where the search was before. A word of the argument starts after a parenthesis, a blank
  or a dot (`findAll_dottedCall`).
-/

import CatalogAudit.Proofs.Scan.Calls

namespace CatalogAudit.Shape

open Text Text.Pattern

/-- A call of a whole word. -/
def wholeCall (p : Pattern) : Pattern := .seq word (argument p)

/-- Two whole words with a dot between them. -/
def wholeDotted : Pattern := all [word, char '.', word]

/-! ## Words -/

section
variable {p q : Pattern}

/-- A word is its characters, where none comes before them. -/
theorem matchThen_word_eq {α : Type} (c : Cursor) (next : List (List Char) → Cursor → Option α) :
    word.matchThen c next =
      if c.before.head?.any isWord then none else (Pattern.field isWord).matchThen c next := by
  rw [word, matchThen_seq]
  simp only [matchThen, Cursor.isEdge]
  cases c.before.head?.any isWord <;> cases c.after.head?.any isWord <;> simp

theorem match?_wholeCall_eq (p : Pattern) (c : Cursor) :
    (wholeCall p).match? c =
      if c.before.head?.any isWord then none else (wordCall p).match? c := by
  rw [wholeCall, match?, matchThen_seq, matchThen_word_eq]
  rfl

theorem match?_wordCall_eq (p : Pattern) (before cs : List Char) :
    (wordCall p).match? ⟨before, cs⟩ =
      if cs.head?.any isWord then
        ((argument p).match? (Cursor.skip isWord ⟨before, cs⟩)).map fun m =>
          (cs.takeWhile isWord :: m.1, m.2)
      else none := by
  rw [match?, match?, ← matchThen_map]
  rfl

/-- One character further on in a word nothing else is found. -/
theorem match?_wordCall_cons {before cs : List Char} {c : Char} (hc : isWord c = true)
    (h : (wordCall p).match? ⟨before, c :: cs⟩ = none) :
    (wordCall p).match? ⟨c :: before, cs⟩ = none := by
  have hskip : Cursor.skip isWord ⟨c :: before, cs⟩ = Cursor.skip isWord ⟨before, c :: cs⟩ := by
    simp [Cursor.skip, hc]
  have hhead : (c :: cs).head?.any isWord = true := hc
  rw [match?_wordCall_eq, if_pos hhead, Option.map_eq_none_iff] at h
  rw [match?_wordCall_eq, hskip, h, Option.map_none, ite_self]

/-! ## The search -/

/-- What a call takes ends with a parenthesis. -/
theorem exists_taken_of_wordCall {before after : List Char} {d : Cursor}
    {fields : List (List Char)} (h : Matches (wordCall p) ⟨before, after⟩ fields d) :
    ∃ front, after = front ++ [')'] ++ d.after ∧
      d.before = (front ++ [')']).reverse ++ before := by
  obtain ⟨taken, hafter, hbefore⟩ := exists_taken_of_matches h
  obtain ⟨_, mid, _, name, call, -⟩ := matches_seq.1 h
  obtain ⟨identifier, -, -, hname, -⟩ := takes_field name
  obtain ⟨gap, more, start, stop, -, -, hopen, ha, hclose⟩ := takes_argument call
  obtain ⟨body, hbody, -⟩ := exists_taken_of_matches ha
  have htaken : taken = identifier ++ '(' :: (gap ++ (body ++ more)) ++ [')'] := by
    refine List.append_cancel_right (hafter.symm.trans ?_)
    rw [hname, hopen, hbody, hclose]
    simp
  exact ⟨_, htaken ▸ hafter, htaken ▸ hbefore⟩

/-- A search never stands within a word where a call of its characters would match. -/
theorem search_wordCall (p : Pattern) {before cs : List Char}
    (h : before.head?.any isWord = true → (wordCall p).match? ⟨before, cs⟩ = none) :
    (wordCall p).search 0 before cs = (wholeCall p).search 0 before cs := by
  induction hn : cs.length using Nat.strong_induction_on generalizing before cs with
  | _ n ih =>
    cases cs with
    | nil => rfl
    | cons c cs =>
      have hwhole := match?_wholeCall_eq p ⟨before, c :: cs⟩
      cases hword : (wordCall p).match? ⟨before, c :: cs⟩ with
      | none =>
        rw [hword, ite_self] at hwhole
        rw [search, search, hword, hwhole]
        -- within the word that starts here there is nothing to be found either
        refine ih cs.length (by simp [← hn]) (fun hc => ?_) rfl
        exact match?_wordCall_cons hc hword
      | some found =>
        obtain ⟨fields, stop⟩ := found
        have hbefore : before.head?.any isWord = false := by
          by_contra hc
          rw [h (by simpa using hc)] at hword
          cases hword
        rw [hbefore, if_neg Bool.false_ne_true, hword] at hwhole
        obtain ⟨front, htext, hstop⟩ := exists_taken_of_wordCall (match?_sound hword)
        obtain ⟨stopBefore, rest⟩ := stop
        dsimp only at htext hstop
        subst hstop
        have hlater : rest.length < n := by
          rw [← hn, htext]
          simp only [List.length_append, List.length_singleton]
          omega
        have hne : front ++ [')'] ≠ [] := by simp
        rw [htext] at hwhole hword ⊢
        rw [search_of_match hne hword, search_of_match hne hwhole]
        congr 1
        -- the parenthesis before the rest belongs to no word
        refine ih rest.length hlater (fun hclose => ?_) rfl
        have hparen : isWord ')' = true := by simpa using hclose
        exact absurd hparen (by decide)

theorem findAll_wordCall (p : Pattern) (text : List Char) :
    (wordCall p).findAll text = (wholeCall p).findAll text := by
  rw [findAll_eq, findAll_eq]
  exact search_wordCall p (by simp)

/-! ## Words of an argument -/

/-- After a character it is known which one comes before. -/
theorem matchThen_char_congr {α : Type} {x : Char}
    {next other : List (List Char) → Cursor → Option α}
    (h : ∀ before after, next [] ⟨x :: before, after⟩ = other [] ⟨x :: before, after⟩)
    (c : Cursor) :
    (char x).matchThen c next = (char x).matchThen c other := by
  obtain ⟨before, after⟩ := c
  rw [char, matchThen, matchThen]
  split
  · next hx =>
    obtain ⟨rest, rfl⟩ := List.isPrefixOf_iff_prefix.1 hx
    exact h before rest
  · rfl

/-- An argument starts where no word character comes before. -/
theorem matchThen_argument_congr {α : Type}
    (h : ∀ (c : Cursor) (next : List (List Char) → Cursor → Option α),
      c.before.head?.any isWord = false → p.matchThen c next = q.matchThen c next)
    (c : Cursor) (next : List (List Char) → Cursor → Option α) :
    (argument p).matchThen c next = (argument q).matchThen c next := by
  simp only [argument, all, List.foldr_cons, List.foldr_nil, matchThen_seq]
  refine matchThen_char_congr (fun before after => h _ _ ?_) c
  have hblank : ∀ x ∈ (after.takeWhile isBlank).reverse, isBlank x = true := fun x hx =>
    List.mem_takeWhile_imp (List.mem_reverse.1 hx)
  exact head?_blanks hblank isWord_paren before

theorem matchThen_dottedField_eq {α : Type} (c : Cursor)
    (next : List (List Char) → Cursor → Option α) (h : c.before.head?.any isWord = false) :
    dottedField.matchThen c next = wholeDotted.matchThen c next := by
  have hword {c : Cursor} (hc : c.before.head?.any isWord = false)
      (next : List (List Char) → Cursor → Option α) :
      (Pattern.field isWord).matchThen c next = word.matchThen c next := by
    rw [matchThen_word_eq, hc, if_neg Bool.false_ne_true]
  simp only [dottedField, wholeDotted, all, List.foldr_cons, List.foldr_nil, matchThen_seq]
  rw [hword h]
  congr 1
  funext fields d
  exact matchThen_char_congr
    (fun before after => hword (any_head?_cons (by decide) before) _) d

theorem match?_dottedCall_eq (c : Cursor) :
    (wordCall dottedField).match? c = (wordCall wholeDotted).match? c := by
  rw [wordCall, wordCall, match?, match?, matchThen_seq, matchThen_seq]
  congr 1
  funext fields d
  exact matchThen_argument_congr matchThen_dottedField_eq d _

theorem findAll_dottedCall (text : List Char) :
    (wordCall dottedField).findAll text = (wholeCall wholeDotted).findAll text := by
  rw [← findAll_wordCall, findAll_eq, findAll_eq]
  exact search_congr match?_dottedCall_eq 0 [] text

end

end CatalogAudit.Shape
