/-
  CatalogAudit.Proofs.Text.Searching — what a pattern does in a text that is known piece by
  piece.

  Where the text after a place is known, so is how a pattern goes on from there
  (`matchThen_text`, `matchThen_one`, `matchThen_span`, `matchThen_field`). What a pattern
  accepts is said form by form (`matches_text` and those after it), so that a match that is
  not there can be ruled out.

  Every match that a search finds stands in the text (`match?_of_mem_findAll`), each further to
  the right than those before it (`pairwise_findAll`), and the one that is found alone has none
  before it (`first_of_findFrom?_some`). A match that is not listed starts within one that is
  (`exists_mem_findAll_of_match?`).

  A search passes over a piece in which no match starts (`search_of_no_match`) and takes a
  piece that is a match as a whole (`search_of_match`); then it goes on as if it started after
  the piece. So a search in a text made of pieces is the search in one piece after the other.
-/

import CatalogAudit.Text.Pattern.Search
import Mathlib.Data.List.TakeWhile

namespace CatalogAudit.Text

section
variable {p : Char → Bool} {xs cs : List Char}

/-- The characters of a class are other than one that it does not hold. -/
theorem ne_of_class {c d : Char} (hc : p c = true) (hd : p d = false) : c ≠ d := by
  rintro rfl
  rw [hd] at hc
  cases hc

/-- A text that goes on with a character outside a class. -/
theorem any_head?_cons {c : Char} (hc : p c = false) (cs : List Char) :
    (c :: cs).head?.any p = false := hc

/-- A run of a class ends where a text goes on with something else. -/
theorem takeWhile_append_eq (hxs : ∀ x ∈ xs, p x = true) (hcs : cs.head?.any p = false) :
    (xs ++ cs).takeWhile p = xs := by
  rw [List.takeWhile_append_of_pos hxs]
  cases cs with
  | nil => simp
  | cons c cs =>
    have hc : p c = false := hcs
    simp [hc]

theorem dropWhile_append_eq (hxs : ∀ x ∈ xs, p x = true) (hcs : cs.head?.any p = false) :
    (xs ++ cs).dropWhile p = cs := by
  rw [List.dropWhile_append_of_pos hxs]
  cases cs with
  | nil => rfl
  | cons c cs =>
    have hc : p c = false := hcs
    simp [hc]

theorem Cursor.skip_append (hxs : ∀ x ∈ xs, p x = true) (hcs : cs.head?.any p = false)
    (before : List Char) : Cursor.skip p ⟨before, xs ++ cs⟩ = ⟨xs.reverse ++ before, cs⟩ := by
  simp [skip, takeWhile_append_eq hxs hcs, dropWhile_append_eq hxs hcs]

end

namespace Pattern

/-! ## Going on after a known text -/

section
variable {α : Type} {p : Char → Bool} {next : List (List Char) → Cursor → Option α}

theorem matchThen_nothing (c : Cursor) : nothing.matchThen c next = next [] c := rfl

theorem matchThen_seq (a b : Pattern) (c : Cursor) :
    (seq a b).matchThen c next =
      a.matchThen c fun found d => b.matchThen d fun more e => next (found ++ more) e := rfl

theorem matchThen_text (s before cs : List Char) :
    (text s).matchThen ⟨before, s ++ cs⟩ next = next [] ⟨s.reverse ++ before, cs⟩ := by
  simp [matchThen, Cursor.advance]

theorem matchThen_char (x : Char) (before cs : List Char) :
    (char x).matchThen ⟨before, x :: cs⟩ next = next [] ⟨x :: before, cs⟩ :=
  matchThen_text [x] before cs

theorem matchThen_one {x : Char} (hx : p x = true) (before cs : List Char) :
    (one p).matchThen ⟨before, x :: cs⟩ next = next [] ⟨x :: before, cs⟩ := by
  simp [matchThen, hx, Cursor.advance]

theorem matchThen_span {xs cs : List Char} (hxs : ∀ x ∈ xs, p x = true)
    (hcs : cs.head?.any p = false) (before : List Char) :
    (span p).matchThen ⟨before, xs ++ cs⟩ next = next [] ⟨xs.reverse ++ before, cs⟩ := by
  rw [matchThen, Cursor.skip_append hxs hcs]

/-- A span of a class takes nothing where none of the class comes next. -/
theorem matchThen_span_nil {cs : List Char} (hcs : cs.head?.any p = false) (before : List Char) :
    (span p).matchThen ⟨before, cs⟩ next = next [] ⟨before, cs⟩ :=
  matchThen_span (fun _ hx => absurd hx List.not_mem_nil) hcs before

theorem matchThen_field {xs cs : List Char} (hne : xs ≠ []) (hxs : ∀ x ∈ xs, p x = true)
    (hcs : cs.head?.any p = false) (before : List Char) :
    (field p).matchThen ⟨before, xs ++ cs⟩ next = next [xs] ⟨xs.reverse ++ before, cs⟩ := by
  have hhead : (xs ++ cs).head?.any p = true := by
    obtain ⟨x, xs, rfl⟩ := List.exists_cons_of_ne_nil hne
    simpa using hxs x List.mem_cons_self
  rw [matchThen, if_pos hhead, takeWhile_append_eq hxs hcs, Cursor.skip_append hxs hcs]

end

/-! ## What a pattern accepts, form by form -/

section
variable {c d : Cursor} {fields : List (List Char)} {p : Char → Bool}

theorem matches_text {s : List Char} :
    Matches (.text s) c fields d ↔
      ∃ cs, c.after = s ++ cs ∧ fields = [] ∧ d = ⟨s.reverse ++ c.before, cs⟩ := by
  constructor
  · intro h
    cases h
    exact ⟨_, rfl, rfl, rfl⟩
  · obtain ⟨before, after⟩ := c
    rintro ⟨cs, rfl, rfl, rfl⟩
    exact .text

theorem matches_span : Matches (.span p) c fields d ↔ fields = [] ∧ d = c.skip p := by
  constructor
  · intro h
    cases h
    exact ⟨rfl, rfl⟩
  · rintro ⟨rfl, rfl⟩
    exact .span

theorem matches_field :
    Matches (.field p) c fields d ↔
      c.after.head?.any p = true ∧ fields = [c.after.takeWhile p] ∧ d = c.skip p := by
  constructor
  · intro h
    cases h with
    | field hx => exact ⟨hx, rfl, rfl⟩
  · rintro ⟨hx, rfl, rfl⟩
    exact .field hx

theorem matches_edge : Matches (.edge p) c fields d ↔ c.isEdge p = true ∧ fields = [] ∧ d = c := by
  constructor
  · intro h
    cases h with
    | edge he => exact ⟨he, rfl, rfl⟩
  · rintro ⟨he, rfl, rfl⟩
    exact .edge he

theorem matches_seq {a b : Pattern} :
    Matches (.seq a b) c fields d ↔
      ∃ found mid more, Matches a c found mid ∧ Matches b mid more d ∧ fields = found ++ more := by
  constructor
  · intro h
    cases h with
    | seq ha hb => exact ⟨_, _, _, ha, hb, rfl⟩
  · rintro ⟨found, mid, more, ha, hb, rfl⟩
    exact .seq ha hb

end

/-! ## What a match takes from the text -/

section
variable {c d : Cursor} {fields : List (List Char)} {p : Char → Bool}

/-- A match takes the text between the place where it starts and the place after it. -/
theorem exists_taken_of_matches {q : Pattern} (h : Matches q c fields d) :
    ∃ taken, c.after = taken ++ d.after ∧ d.before = taken.reverse ++ c.before := by
  induction h with
  | nothing | edge => exact ⟨[], rfl, rfl⟩
  | @text s before cs => exact ⟨s, rfl, rfl⟩
  | @one p x before cs => exact ⟨[x], rfl, rfl⟩
  | @span p c | @field p c =>
    exact ⟨c.after.takeWhile p, List.takeWhile_append_dropWhile.symm, rfl⟩
  | @stretch p xs before cs => exact ⟨xs, rfl, rfl⟩
  | seq _ _ iha ihb =>
    obtain ⟨taken, hafter, hbefore⟩ := iha
    obtain ⟨more, hafter', hbefore'⟩ := ihb
    exact ⟨taken ++ more, by rw [hafter, hafter', List.append_assoc], by
      rw [hbefore', hbefore, List.reverse_append, List.append_assoc]⟩
  | left _ ih | right _ ih => exact ih

theorem takes_text {s : List Char} (h : Matches (.text s) c fields d) :
    c.after = s ++ d.after ∧ fields = [] := by
  cases h
  exact ⟨rfl, rfl⟩

theorem takes_one (h : Matches (.one p) c fields d) :
    ∃ x, p x = true ∧ c.after = x :: d.after ∧ fields = [] := by
  cases h with
  | one hx => exact ⟨_, hx, rfl, rfl⟩

theorem takes_span (h : Matches (.span p) c fields d) :
    ∃ xs, (∀ x ∈ xs, p x = true) ∧ c.after = xs ++ d.after ∧ fields = [] := by
  cases h
  exact ⟨c.after.takeWhile p, fun x hx => List.mem_takeWhile_imp hx,
    List.takeWhile_append_dropWhile.symm, rfl⟩

theorem takes_stretch (h : Matches (.stretch p) c fields d) :
    ∃ xs, (∀ x ∈ xs, p x = true) ∧ c.after = xs ++ d.after ∧ fields = [] := by
  cases h with
  | stretch hxs => exact ⟨_, hxs, rfl, rfl⟩

theorem takes_field (h : Matches (.field p) c fields d) :
    ∃ xs, xs ≠ [] ∧ (∀ x ∈ xs, p x = true) ∧ c.after = xs ++ d.after ∧ fields = [xs] := by
  cases h with
  | field hfirst =>
    refine ⟨c.after.takeWhile p, ?_, fun x hx => List.mem_takeWhile_imp hx,
      List.takeWhile_append_dropWhile.symm, rfl⟩
    cases hafter : c.after with
    | nil =>
      rw [hafter] at hfirst
      cases hfirst
    | cons x cs =>
      rw [hafter] at hfirst
      have hx : p x = true := hfirst
      simp [hx]

/-- A stretch goes as far as what comes after it allows. -/
theorem matchStretch_eq_some {α : Type} {next : Cursor → Option α} {a : α}
    {before after : List Char} (h : matchStretch p next before after = some a) :
    ∃ xs cs, after = xs ++ cs ∧ (∀ x ∈ xs, p x = true) ∧
      next ⟨xs.reverse ++ before, cs⟩ = some a ∧
      ∀ ys zs, cs = ys ++ zs → ys ≠ [] → (∀ y ∈ ys, p y = true) →
        next ⟨ys.reverse ++ (xs.reverse ++ before), zs⟩ = none := by
  induction after generalizing before with
  | nil => exact ⟨[], [], rfl, by simp, h, fun ys zs hsplit hne _ =>
      absurd (List.append_eq_nil_iff.1 hsplit.symm).1 hne⟩
  | cons c cs ih =>
    rw [matchStretch] at h
    by_cases hc : p c = true
    · rw [if_pos hc] at h
      cases hlater : matchStretch p next (c :: before) cs with
      | some b =>
        rw [hlater] at h
        cases h
        obtain ⟨xs, ds, rfl, hxs, hnext, hlast⟩ := ih hlater
        refine ⟨c :: xs, ds, rfl, List.forall_mem_cons.2 ⟨hc, hxs⟩, by simpa using hnext, ?_⟩
        simpa using hlast
      | none =>
        rw [hlater] at h
        refine ⟨[], c :: cs, rfl, by simp, h, fun ys zs hsplit hne hys => ?_⟩
        obtain ⟨y, ys, rfl⟩ := List.exists_cons_of_ne_nil hne
        obtain ⟨rfl, htail⟩ : c = y ∧ cs = ys ++ zs := List.cons.inj hsplit
        by_contra hnext
        have hsome : (matchStretch p next (c :: before) (ys ++ zs)).isSome :=
          matchStretch_complete (List.forall_mem_cons.1 hys).2
            (Option.isSome_iff_ne_none.2 (by simpa using hnext))
        rw [← htail, hlater] at hsome
        cases hsome
    · rw [if_neg hc] at h
      refine ⟨[], c :: cs, rfl, by simp, h, fun ys zs hsplit hne hys => ?_⟩
      obtain ⟨y, ys, rfl⟩ := List.exists_cons_of_ne_nil hne
      obtain ⟨rfl, -⟩ := List.cons.inj hsplit
      exact absurd (hys _ List.mem_cons_self) hc

end

/-! ## Searching piece by piece -/

section
variable {q : Pattern} {before xs cs : List Char}

theorem match?_eq_none (h : ∀ fields d, ¬ Matches q ⟨before, cs⟩ fields d) :
    q.match? ⟨before, cs⟩ = none := by
  cases hm : q.match? ⟨before, cs⟩ with
  | none => rfl
  | some m => exact absurd (match?_sound hm) (h m.1 m.2)

/-- What matches alike at every place is found alike. -/
theorem search_congr {r : Pattern} (h : ∀ c, q.match? c = r.match? c) (skip : Nat)
    (before cs : List Char) :
    q.search skip before cs = r.search skip before cs := by
  induction cs generalizing skip before with
  | nil => rfl
  | cons x cs ih =>
    cases skip with
    | succ skip => exact ih skip (x :: before)
    | zero =>
      rw [search, search, h]
      split
      · rw [ih]
      · exact ih 0 (x :: before)

/-- The characters of an earlier match are passed over. -/
theorem search_skip (q : Pattern) (before xs cs : List Char) :
    q.search xs.length before (xs ++ cs) = q.search 0 (xs.reverse ++ before) cs := by
  induction xs generalizing before with
  | nil => rfl
  | cons x xs ih =>
    rw [List.cons_append, List.length_cons, search, ih]
    simp

/-- A piece `xs` and the character after it, when no match starts in the piece or right after
it. -/
theorem search_of_no_match {x : Char}
    (h : ∀ us vs, xs = us ++ vs → ∀ fields d,
      ¬ Matches q ⟨us.reverse ++ before, vs ++ x :: cs⟩ fields d) :
    q.search 0 before (xs ++ x :: cs) = q.search 0 (x :: (xs.reverse ++ before)) cs := by
  induction xs generalizing before with
  | nil =>
    have hhere : q.match? ⟨before, x :: cs⟩ = none := match?_eq_none (h [] [] rfl)
    rw [List.nil_append, search, hhere, List.reverse_nil, List.nil_append]
  | cons y ys ih =>
    have hhere : q.match? ⟨before, y :: (ys ++ x :: cs)⟩ = none :=
      match?_eq_none (h [] (y :: ys) rfl)
    have hlater : q.search 0 (y :: before) (ys ++ x :: cs) =
        q.search 0 (x :: (ys.reverse ++ y :: before)) cs := by
      refine ih fun us vs hys => ?_
      have := h (y :: us) vs (by rw [hys, List.cons_append])
      simpa using this
    rw [List.cons_append, search, hhere]
    simpa using hlater

/-- A piece that is a match. -/
theorem search_of_match {fields : List (List Char)} (hne : xs ≠ [])
    (h : q.match? ⟨before, xs ++ cs⟩ = some (fields, ⟨xs.reverse ++ before, cs⟩)) :
    q.search 0 before (xs ++ cs) = ⟨before, fields⟩ :: q.search 0 (xs.reverse ++ before) cs := by
  obtain ⟨x, xs, rfl⟩ := List.exists_cons_of_ne_nil hne
  have hlength : (xs ++ cs).length - cs.length = xs.length := by simp
  rw [List.cons_append] at h ⊢
  rw [search, h]
  dsimp only
  rw [hlength, search_skip]
  simp

/-- The places of a text are those between a part of it and the rest. -/
theorem mem_places_iff {c : Cursor} {text : List Char} :
    c ∈ Cursor.places ⟨[], text⟩ ↔
      ∃ front rest, text = front ++ rest ∧ c = ⟨front.reverse, rest⟩ := by
  rw [List.mem_iff_getElem?]
  constructor
  · rintro ⟨i, hi⟩
    rw [Cursor.getElem?_places] at hi
    split at hi
    · cases hi
      exact ⟨text.take i, text.drop i, (List.take_append_drop i text).symm, by
        simp [Cursor.advance]⟩
    · cases hi
  · rintro ⟨front, rest, rfl, rfl⟩
    exact ⟨front.length, by simp [Cursor.getElem?_places, Cursor.advance]⟩

/-- Where nothing is found the pattern matches nowhere. -/
theorem match?_of_findFrom?_none (h : q.findFrom? before cs = none) :
    ∀ us vs, cs = us ++ vs → vs ≠ [] → q.match? ⟨us.reverse ++ before, vs⟩ = none := by
  induction cs generalizing before with
  | nil => exact fun us vs hsplit hne => absurd (List.append_eq_nil_iff.1 hsplit.symm).2 hne
  | cons c cs ih =>
    rw [findFrom?] at h
    split at h
    · cases h
    · next hhere =>
      intro us vs hsplit hne
      cases us with
      | nil =>
        obtain rfl : c :: cs = vs := hsplit
        exact hhere
      | cons u us =>
        obtain ⟨rfl, hrest⟩ := List.cons.inj hsplit
        simpa using ih h us vs hrest hne

/-- What is found is a match with none before it. -/
theorem first_of_findFrom?_some {m : Match} (h : q.findFrom? before cs = some m) :
    ∃ us vs stop, cs = us ++ vs ∧ m.before = us.reverse ++ before ∧
      q.match? ⟨m.before, vs⟩ = some (m.fields, stop) ∧
      ∀ xs ys, cs = xs ++ ys → xs.length < us.length →
        q.match? ⟨xs.reverse ++ before, ys⟩ = none := by
  induction cs generalizing before with
  | nil => cases h
  | cons c cs ih =>
    rw [findFrom?] at h
    split at h
    · next fields stop hhere =>
      cases h
      exact ⟨[], c :: cs, stop, rfl, rfl, hhere, fun xs ys _ hlt => absurd hlt (by simp)⟩
    · next hhere =>
      obtain ⟨us, vs, stop, rfl, hbefore, hm, hnone⟩ := ih h
      refine ⟨c :: us, vs, stop, rfl, by simpa using hbefore, hm, fun xs ys hsplit hlt => ?_⟩
      cases xs with
      | nil =>
        obtain rfl : c :: (us ++ vs) = ys := hsplit
        exact hhere
      | cons x xs =>
        obtain ⟨rfl, hrest⟩ := List.cons.inj hsplit
        simpa using hnone xs ys hrest (Nat.lt_of_succ_lt_succ hlt)

/-- Each match of a search stands in the text. -/
theorem match?_of_mem_search {m : Match} {skip : Nat} (h : m ∈ q.search skip before cs) :
    ∃ us vs stop, cs = us ++ vs ∧ m.before = us.reverse ++ before ∧
      q.match? ⟨m.before, vs⟩ = some (m.fields, stop) := by
  induction cs generalizing before skip with
  | nil => cases h
  | cons c cs ih =>
    have hlater : ∀ {skip}, m ∈ q.search skip (c :: before) cs →
        ∃ us vs stop, c :: cs = us ++ vs ∧ m.before = us.reverse ++ before ∧
          q.match? ⟨m.before, vs⟩ = some (m.fields, stop) := by
      intro skip hm
      obtain ⟨us, vs, stop, rfl, hbefore, hmatch⟩ := ih hm
      exact ⟨c :: us, vs, stop, rfl, by simpa using hbefore, hmatch⟩
    cases skip with
    | succ skip => exact hlater h
    | zero =>
      rw [search] at h
      split at h
      · next fields stop hhere =>
        rcases List.mem_cons.1 h with rfl | h
        · exact ⟨[], c :: cs, stop, rfl, rfl, hhere⟩
        · exact hlater h
      · exact hlater h

theorem match?_of_mem_findAll {m : Match} (h : m ∈ q.findAll cs) :
    ∃ rest stop, cs = m.before.reverse ++ rest ∧
      q.match? ⟨m.before, rest⟩ = some (m.fields, stop) := by
  rw [findAll_eq] at h
  obtain ⟨us, rest, stop, hsplit, hbefore, hm⟩ := match?_of_mem_search h
  rw [List.append_nil] at hbefore
  refine ⟨rest, stop, ?_, hm⟩
  rw [hbefore, List.reverse_reverse]
  exact hsplit

/-- A match is listed, or it starts within one that is. -/
theorem exists_mem_search_of_match? (before : List Char) {c : Char} {us vs : List Char}
    {fields : List (List Char)} {d : Cursor} {skip : Nat} (hskip : skip ≤ us.length)
    (h : q.match? ⟨us.reverse ++ before, c :: vs⟩ = some (fields, d)) :
    ∃ xs ys found e, us = xs ++ ys ∧
      q.match? ⟨xs.reverse ++ before, ys ++ c :: vs⟩ = some (found, e) ∧
      ⟨xs.reverse ++ before, found⟩ ∈ q.search skip before (us ++ c :: vs) ∧
      (ys = [] ∨ e.after.length < (c :: vs).length) := by
  induction us generalizing before skip with
  | nil =>
    obtain rfl : skip = 0 := Nat.le_zero.1 hskip
    rw [List.reverse_nil, List.nil_append] at h
    refine ⟨[], [], fields, d, rfl, h, ?_, .inl rfl⟩
    rw [List.nil_append, search, h]
    exact List.mem_cons_self
  | cons u us ih =>
    have hlater {skip : Nat} (hskip : skip ≤ us.length) :
        ∃ xs ys found e, u :: us = xs ++ ys ∧
          q.match? ⟨xs.reverse ++ before, ys ++ c :: vs⟩ = some (found, e) ∧
          ⟨xs.reverse ++ before, found⟩ ∈ q.search skip (u :: before) (us ++ c :: vs) ∧
          (ys = [] ∨ e.after.length < (c :: vs).length) := by
      obtain ⟨xs, ys, found, e, rfl, hm, hmem, hreach⟩ :=
        ih (u :: before) hskip (by simpa using h)
      exact ⟨u :: xs, ys, found, e, rfl, by simpa using hm, by simpa using hmem, hreach⟩
    rw [List.cons_append]
    cases skip with
    | succ skip => exact hlater (Nat.le_of_succ_le_succ hskip)
    | zero =>
      rw [search]
      split
      · next found e hhere =>
        by_cases hreach : e.after.length < (c :: vs).length
        · exact ⟨[], u :: us, found, e, rfl, hhere, List.mem_cons_self, .inr hreach⟩
        · have hroom : (us ++ c :: vs).length - e.after.length ≤ us.length := by
            simp only [List.length_append, List.length_cons] at hreach ⊢
            omega
          obtain ⟨xs, ys, found, e, hsplit, hm, hmem, hreach⟩ := hlater hroom
          exact ⟨xs, ys, found, e, hsplit, hm, List.mem_cons_of_mem _ hmem, hreach⟩
      · exact hlater (Nat.zero_le _)

theorem exists_mem_findAll_of_match? {front rest : List Char} {fields : List (List Char)}
    {d : Cursor} (hne : rest ≠ []) (h : q.match? ⟨front.reverse, rest⟩ = some (fields, d)) :
    ∃ us vs found e, front = us ++ vs ∧ q.match? ⟨us.reverse, vs ++ rest⟩ = some (found, e) ∧
      ⟨us.reverse, found⟩ ∈ q.findAll (front ++ rest) ∧
      (vs = [] ∨ e.after.length < rest.length) := by
  obtain ⟨c, rest, rfl⟩ := List.exists_cons_of_ne_nil hne
  obtain ⟨us, vs, found, e, hsplit, hm, hmem, hreach⟩ :=
    exists_mem_search_of_match? [] (Nat.zero_le front.length) (by simpa using h)
  rw [List.append_nil] at hm hmem
  exact ⟨us, vs, found, e, hsplit, hm, by rwa [findAll_eq], hreach⟩

/-- A match is listed when none that starts before it reaches into it. -/
theorem mem_findAll_of_match? {front rest : List Char} {fields : List (List Char)} {d : Cursor}
    (hne : rest ≠ []) (h : q.match? ⟨front.reverse, rest⟩ = some (fields, d))
    (hapart : ∀ us vs found e, front = us ++ vs → vs ≠ [] →
      q.match? ⟨us.reverse, vs ++ rest⟩ = some (found, e) → rest.length ≤ e.after.length) :
    ⟨front.reverse, fields⟩ ∈ q.findAll (front ++ rest) := by
  obtain ⟨us, vs, found, e, rfl, hm, hmem, hreach⟩ := exists_mem_findAll_of_match? hne h
  by_cases hvs : vs = []
  · subst hvs
    rw [List.append_nil] at h ⊢
    rw [List.nil_append, h] at hm
    cases hm
    simpa using hmem
  · have hlength := hapart us vs found e rfl hvs hm
    have hlt := hreach.resolve_left hvs
    omega

/-- The matches of a search stand in the text from left to right. -/
theorem pairwise_search (q : Pattern) (skip : Nat) (before cs : List Char) :
    (q.search skip before cs).Pairwise fun m n => m.before.length < n.before.length := by
  induction cs generalizing skip before with
  | nil => exact .nil
  | cons c cs ih =>
    cases skip with
    | succ skip => exact ih skip (c :: before)
    | zero =>
      rw [search]
      split
      · refine List.pairwise_cons.2 ⟨fun m hm => ?_, ih _ _⟩
        obtain ⟨us, _, _, -, hbefore, -⟩ := match?_of_mem_search hm
        simp only [hbefore, List.length_append, List.length_cons]
        omega
      · exact ih 0 (c :: before)

theorem pairwise_findAll (q : Pattern) (cs : List Char) :
    (q.findAll cs).Pairwise fun m n => m.before.length < n.before.length := by
  rw [findAll_eq]
  exact pairwise_search q 0 [] cs

/-- The first place counts when the pattern matches there. -/
theorem find?_of_match {fields : List (List Char)} {d : Cursor} (hne : cs ≠ [])
    (h : q.match? ⟨[], cs⟩ = some (fields, d)) : q.find? cs = some ⟨[], fields⟩ := by
  obtain ⟨c, cs, rfl⟩ := List.exists_cons_of_ne_nil hne
  rw [find?, findFrom?, h]

/-- Nothing is found in a text without the character that every match starts with. -/
theorem search_eq_nil {x : Char}
    (hx : ∀ c fields d, Matches q c fields d → ∃ rest, c.after = x :: rest) (hcs : x ∉ cs)
    (before : List Char) : q.search 0 before cs = [] := by
  induction cs generalizing before with
  | nil => rfl
  | cons y cs ih =>
    have hhere : q.match? ⟨before, y :: cs⟩ = none := by
      refine match?_eq_none fun fields d hm => ?_
      obtain ⟨rest, hrest⟩ := hx _ _ _ hm
      exact hcs ((List.cons.inj hrest).1 ▸ List.mem_cons_self)
    rw [search, hhere]
    exact ih (fun hm => hcs (List.mem_cons_of_mem y hm)) (y :: before)

end

end Pattern

end CatalogAudit.Text
