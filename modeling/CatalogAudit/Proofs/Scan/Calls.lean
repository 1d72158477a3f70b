/-
  CatalogAudit.Proofs.Scan.Calls — where the shape of a call matches.

  A call starts with a word that stands right before an opening parenthesis (`IsCall`). So in
  a text no call starts in a piece without a parenthesis whose last character belongs to no word
  (`search_quiet`), nor at a word and its parenthesis when none matches at the word or later in
  it (`search_unmatched_word`).

  A call with a quoted argument that is written out without blanks is a match as a whole, with
  the argument as a field (`match?_namedCall`, `match?_wordCall`).
-/

import CatalogAudit.Proofs.Text.Searching
import CatalogAudit.Scan.Shape
import Mathlib.Data.List.TakeWhile

namespace CatalogAudit.Shape

open Text Text.Pattern

theorem isWord_paren : isWord '(' = false := by decide

theorem head?_paren (rest : List Char) : ('(' :: rest).head?.any isWord = false :=
  any_head?_cons isWord_paren rest

theorem isBlank_eq_false_of_isWord {c : Char} (h : isWord c = true) : isBlank c = false := by
  by_contra hblank
  rw [isWord_of_isBlank (by simpa using hblank)] at h
  cases h

/-- Blanks in front do not make a text start with a word. -/
theorem head?_blanks {gap : List Char} (hgap : ∀ c ∈ gap, isBlank c = true) {c : Char}
    (hc : isWord c = false) (rest : List Char) :
    (gap ++ c :: rest).head?.any isWord = false := by
  cases gap with
  | nil => exact any_head?_cons hc rest
  | cons x gap => exact any_head?_cons (isWord_of_isBlank (hgap x List.mem_cons_self)) _

/-! ## Calls that are written out -/

section
variable {α : Type} {next : List (List Char) → Cursor → Option α} {before cs : List Char}

theorem matchThen_word {v : List Char} (hne : v ≠ []) (hv : ∀ c ∈ v, isWord c = true)
    (hbefore : before.head?.any isWord = false) (hcs : cs.head?.any isWord = false) :
    word.matchThen ⟨before, v ++ cs⟩ next = next [v] ⟨v.reverse ++ before, cs⟩ := by
  have hedge : Cursor.isEdge isWord ⟨before, v ++ cs⟩ = true := by
    obtain ⟨x, v, rfl⟩ := List.exists_cons_of_ne_nil hne
    simp [Cursor.isEdge, hbefore, hv x List.mem_cons_self]
  rw [word, matchThen_seq, matchThen, if_pos hedge]
  exact matchThen_field hne hv hcs before

/-- A call as it is written, with an argument in double quotes. -/
def callText (callee argument : List Char) : List Char :=
  callee ++ '(' :: '"' :: (argument ++ ['"', ')'])

theorem matchThen_quotedArgument {name : List Char} (hne : name ≠ [])
    (hname : ∀ c ∈ name, notQuote c = true) :
    (argument quotedField).matchThen ⟨before, '(' :: '"' :: (name ++ '"' :: ')' :: cs)⟩ next =
      next [name] ⟨')' :: '"' :: (name.reverse ++ '"' :: '(' :: before), cs⟩ := by
  have hquote : isQuote '"' = true := rfl
  have hquoteNext (rest : List Char) : ('"' :: rest).head?.any isBlank = false :=
    any_head?_cons (by decide) rest
  have hparenNext (rest : List Char) : (')' :: rest).head?.any isBlank = false :=
    any_head?_cons (by decide) rest
  have hends (rest : List Char) : ('"' :: rest).head?.any notQuote = false :=
    any_head?_cons (by decide) rest
  simp only [argument, quotedField, all, List.foldr_cons, List.foldr_nil, blanks, matchThen_seq,
    matchThen_nothing, matchThen_char, matchThen_one hquote, matchThen_field hne hname (hends _),
    matchThen_span_nil (hquoteNext _), matchThen_span_nil (hparenNext _),
    List.nil_append, List.append_nil]

variable {name : List Char} (hne : name ≠ []) (hname : ∀ c ∈ name, notQuote c = true)
include hne hname

theorem match?_namedCall (s before cs : List Char) :
    (Pattern.seq (.text s) (argument quotedField)).match? ⟨before, callText s name ++ cs⟩ =
      some ([name], ⟨(callText s name).reverse ++ before, cs⟩) := by
  have htext : callText s name ++ cs = s ++ '(' :: '"' :: (name ++ '"' :: ')' :: cs) := by
    simp [callText]
  rw [match?, matchThen_seq, htext, matchThen_text, matchThen_quotedArgument hne hname]
  simp [callText]

theorem match?_wordCall {v : List Char} (hv : v ≠ []) (hword : ∀ c ∈ v, isWord c = true)
    (before cs : List Char) :
    (wordCall quotedField).match? ⟨before, callText v name ++ cs⟩ =
      some ([v, name], ⟨(callText v name).reverse ++ before, cs⟩) := by
  have htext : callText v name ++ cs = v ++ '(' :: '"' :: (name ++ '"' :: ')' :: cs) := by
    simp [callText]
  rw [wordCall, match?, matchThen_seq, htext, matchThen_field hv hword (head?_paren _),
    matchThen_quotedArgument hne hname]
  simp [callText]

end

/-! ## Where a call can start -/

/-- The pattern matches only at a word that stands before an opening parenthesis. -/
def IsCall (q : Pattern) : Prop :=
  ∀ before after fields d, Matches q ⟨before, after⟩ fields d →
    ∃ w rest, w ≠ [] ∧ (∀ c ∈ w, isWord c = true) ∧ after = w ++ '(' :: rest

/-- The word before a parenthesis and what comes after it are told by the text. -/
theorem word_paren_inj {v w rest more : List Char} (hv : ∀ c ∈ v, isWord c = true)
    (hw : ∀ c ∈ w, isWord c = true) (h : v ++ '(' :: rest = w ++ '(' :: more) :
    v = w ∧ rest = more := by
  have htake := congrArg (List.takeWhile isWord) h
  have hdrop := congrArg (List.dropWhile isWord) h
  rw [takeWhile_append_eq hv (head?_paren rest), takeWhile_append_eq hw (head?_paren more)] at htake
  rw [dropWhile_append_eq hv (head?_paren rest), dropWhile_append_eq hw (head?_paren more)] at hdrop
  exact ⟨htake, (List.cons.inj hdrop).2⟩

theorem matches_argument {a : Pattern} {c d : Cursor} {fields : List (List Char)}
    (h : Matches (argument a) c fields d) :
    ∃ rest, c.after = '(' :: rest ∧ ∃ found stop,
      Matches a (Cursor.skip isBlank ⟨'(' :: c.before, rest⟩) found stop := by
  obtain ⟨_, mid, _, hopen, h, -⟩ := matches_seq.1 h
  obtain ⟨rest, hafter, -, rfl⟩ := matches_text.1 hopen
  obtain ⟨_, mid, _, hblanks, h, -⟩ := matches_seq.1 h
  obtain ⟨-, rfl⟩ := matches_span.1 hblanks
  obtain ⟨found, stop, _, ha, -, -⟩ := matches_seq.1 h
  exact ⟨rest, hafter, found, stop, ha⟩

theorem takes_argument {a : Pattern} {c d : Cursor} {fields : List (List Char)}
    (h : Matches (argument a) c fields d) :
    ∃ gap more start stop, (∀ x ∈ gap, isBlank x = true) ∧ (∀ x ∈ more, isBlank x = true) ∧
      c.after = '(' :: (gap ++ start.after) ∧ Matches a start fields stop ∧
      stop.after = more ++ ')' :: d.after := by
  obtain ⟨_, _, _, opening, fromGap, rfl⟩ := matches_seq.1 h
  obtain ⟨_, start, _, first, fromArgument, rfl⟩ := matches_seq.1 fromGap
  obtain ⟨found, stop, _, ha, fromMore, rfl⟩ := matches_seq.1 fromArgument
  obtain ⟨_, _, _, last, fromClosing, rfl⟩ := matches_seq.1 fromMore
  obtain ⟨_, _, _, closing, finish, rfl⟩ := matches_seq.1 fromClosing
  cases finish
  obtain ⟨hopening, rfl⟩ := takes_text opening
  obtain ⟨gap, hgap, hfirst, rfl⟩ := takes_span first
  obtain ⟨more, hmore, hlast, rfl⟩ := takes_span last
  obtain ⟨hclosing, rfl⟩ := takes_text closing
  refine ⟨gap, more, start, stop, hgap, hmore, ?_, by simpa using ha, ?_⟩
  · rw [hopening, hfirst]
    rfl
  · rw [hlast, hclosing]
    rfl

variable {a : Pattern} {before rest : List Char} {fields : List (List Char)} {d : Cursor}

/-- A call of a fixed name, seen from a word before a parenthesis. -/
theorem matches_namedCall {s v : List Char} (hs : ∀ c ∈ s, isWord c = true)
    (hv : ∀ c ∈ v, isWord c = true)
    (h : Matches (.seq (.text s) (argument a)) ⟨before, v ++ '(' :: rest⟩ fields d) :
    v = s ∧ ∃ found stop,
      Matches a (Cursor.skip isBlank ⟨'(' :: (v.reverse ++ before), rest⟩) found stop := by
  obtain ⟨_, mid, _, hname, h, -⟩ := matches_seq.1 h
  obtain ⟨cs, hafter, -, rfl⟩ := matches_text.1 hname
  obtain ⟨more, hcs, found, stop, ha⟩ := matches_argument h
  dsimp only at hafter hcs ha
  rw [hcs] at hafter
  obtain ⟨rfl, rfl⟩ := word_paren_inj hv hs hafter
  exact ⟨rfl, found, stop, ha⟩

/-- A call of any word, seen from word characters before a parenthesis. -/
theorem matches_wordCall {v : List Char} (hv : ∀ c ∈ v, isWord c = true)
    (h : Matches (wordCall a) ⟨before, v ++ '(' :: rest⟩ fields d) :
    ∃ found stop,
      Matches a (Cursor.skip isBlank ⟨'(' :: (v.reverse ++ before), rest⟩) found stop := by
  obtain ⟨_, mid, _, hfield, h, -⟩ := matches_seq.1 h
  obtain ⟨-, -, rfl⟩ := matches_field.1 hfield
  rw [Cursor.skip_append hv (head?_paren rest)] at h
  obtain ⟨more, hmore, found, stop, ha⟩ := matches_argument h
  obtain ⟨-, rfl⟩ := List.cons.inj hmore
  exact ⟨found, stop, ha⟩

theorem isCall_named {s : List Char} (hne : s ≠ []) (hs : ∀ c ∈ s, isWord c = true)
    (a : Pattern) : IsCall (.seq (.text s) (argument a)) := by
  intro before after fields d h
  obtain ⟨_, mid, _, hname, h, -⟩ := matches_seq.1 h
  obtain ⟨cs, hafter, -, rfl⟩ := matches_text.1 hname
  obtain ⟨rest, hcs, -⟩ := matches_argument h
  exact ⟨s, rest, hne, hs, by rw [← hcs]; exact hafter⟩

theorem isCall_wordCall (a : Pattern) : IsCall (wordCall a) := by
  intro before after fields d h
  obtain ⟨_, mid, _, hfield, h, -⟩ := matches_seq.1 h
  obtain ⟨hfirst, -, rfl⟩ := matches_field.1 hfield
  obtain ⟨rest, hrest, -⟩ := matches_argument h
  dsimp only [Cursor.skip] at hfirst hrest
  refine ⟨after.takeWhile isWord, rest, ?_, fun c hc => List.mem_takeWhile_imp hc, ?_⟩
  · cases after with
    | nil => cases hfirst
    | cons x cs =>
      have hx : isWord x = true := hfirst
      simp [hx]
  · rw [← hrest, List.takeWhile_append_dropWhile]

/-! ## Pieces in which no call starts -/

variable {q : Pattern} (hq : IsCall q)
include hq

/-- A piece without a parenthesis, and a character after it that belongs to no word. -/
theorem search_quiet {xs : List Char} {c : Char} (hxs : '(' ∉ xs) (hparen : c ≠ '(')
    (hc : isWord c = false) (before cs : List Char) :
    q.search 0 before (xs ++ c :: cs) = q.search 0 (c :: (xs.reverse ++ before)) cs := by
  refine search_of_no_match fun us vs hsplit fields d hm => ?_
  obtain ⟨w, rest, -, hw, hafter⟩ := hq _ _ _ _ hm
  -- the parenthesis of a call would stand after `c`, so that `c` is in its word, or before it
  rcases List.append_eq_append_iff.1 hafter with ⟨ws, hwvs, htail⟩ | ⟨ws, hvs, htail⟩
  · cases ws with
    | nil => exact hparen (List.cons.inj htail).1
    | cons x ws =>
      obtain ⟨rfl, -⟩ := List.cons.inj htail
      have := hw c (by rw [hwvs]; simp)
      rw [hc] at this
      cases this
  · cases ws with
    | nil => exact hparen (List.cons.inj htail).1.symm
    | cons x ws =>
      obtain ⟨rfl, -⟩ := List.cons.inj htail
      exact hxs (by rw [hsplit, hvs]; simp)

/-- A word and its parenthesis, when the pattern matches nowhere in the word. -/
theorem search_unmatched_word {v : List Char} (before rest : List Char)
    (h : ∀ us vs, v = us ++ vs → vs ≠ [] → ∀ fields d,
      ¬ Matches q ⟨us.reverse ++ before, vs ++ '(' :: rest⟩ fields d) :
    q.search 0 before (v ++ '(' :: rest) = q.search 0 ('(' :: (v.reverse ++ before)) rest := by
  refine search_of_no_match fun us vs hsplit fields d hm => ?_
  by_cases hvs : vs = []
  · -- right before the parenthesis no word is left
    subst hvs
    obtain ⟨w, more, hw, hword, hafter⟩ := hq _ _ _ _ hm
    obtain ⟨y, w, rfl⟩ := List.exists_cons_of_ne_nil hw
    obtain ⟨rfl, -⟩ := List.cons.inj hafter
    have := hword '(' List.mem_cons_self
    rw [isWord_paren] at this
    cases this
  · exact h us vs hsplit hvs fields d hm

/-- A call that is written out, when the pattern matches nowhere in its word. -/
theorem search_unmatched_call {v name : List Char} (hname : '(' ∉ name) (before cs : List Char)
    (h : ∀ us vs, v = us ++ vs → vs ≠ [] → ∀ fields d,
      ¬ Matches q ⟨us.reverse ++ before, vs ++ '(' :: ('"' :: (name ++ '"' :: ')' :: cs))⟩
        fields d) :
    q.search 0 before (callText v name ++ cs) =
      q.search 0 ((callText v name).reverse ++ before) cs := by
  have hquiet : '(' ∉ '"' :: (name ++ ['"']) := by simp [hname]
  calc q.search 0 before (callText v name ++ cs)
    _ = q.search 0 before (v ++ '(' :: ('"' :: (name ++ '"' :: ')' :: cs))) := by simp [callText]
    _ = q.search 0 ('(' :: (v.reverse ++ before)) ('"' :: (name ++ '"' :: ')' :: cs)) :=
      search_unmatched_word hq before _ h
    _ = q.search 0 ('(' :: (v.reverse ++ before)) ('"' :: (name ++ ['"']) ++ ')' :: cs) := by simp
    _ = q.search 0 ((callText v name).reverse ++ before) cs := by
      rw [search_quiet hq hquiet (by decide) (by decide)]
      simp [callText]

end CatalogAudit.Shape
