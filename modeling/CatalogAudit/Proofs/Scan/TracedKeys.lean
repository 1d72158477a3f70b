/-
  CatalogAudit.Proofs.Scan.TracedKeys — which field of an object literal is taken for the key.

  An object literal that is written out (`ObjectLiteral`) is read up to the last place in it
  where the text `key:` stands. As values hold no colons, such a place is the end of a field's
  name. So the value that is taken is that of the last field whose name ends in `key`
  (`traced_key_is_last_ending`): the field named `key` when no later name ends so, and otherwise
  another one (`traced_key_may_be_another`).
-/

import CatalogAudit.Proofs.Scan.Lookups
import Mathlib.Data.List.Infix
import Mathlib.Data.List.Nodup

namespace CatalogAudit.Text.Pattern

/-! ## Stretches -/

section
variable {α : Type} {p : Char → Bool} {next : Cursor → Option α} {before xs cs : List Char}

/-- A stretch takes a piece as a whole when nothing goes on from a place in it. -/
theorem matchStretch_quiet (hxs : ∀ x ∈ xs, p x = true)
    (h : ∀ us vs, xs = us ++ vs → vs ≠ [] → next ⟨us.reverse ++ before, vs ++ cs⟩ = none) :
    matchStretch p next before (xs ++ cs) = matchStretch p next (xs.reverse ++ before) cs := by
  induction xs generalizing before with
  | nil => rfl
  | cons x xs ih =>
    obtain ⟨hx, hxs⟩ := List.forall_mem_cons.1 hxs
    have hhere : next ⟨before, x :: (xs ++ cs)⟩ = none := h [] (x :: xs) rfl (by simp)
    have hlater : matchStretch p next (x :: before) (xs ++ cs) =
        matchStretch p next (xs.reverse ++ x :: before) cs := by
      refine ih hxs fun us vs hsplit hne => ?_
      simpa using h (x :: us) vs (by rw [hsplit, List.cons_append]) hne
    rw [List.cons_append, matchStretch, if_pos hx, hhere, hlater]
    simp

theorem matchStretch_stop {c : Char} (hc : p c = false) (before cs : List Char) :
    matchStretch p next before (c :: cs) = next ⟨before, c :: cs⟩ := by
  rw [matchStretch, hc]
  rfl

end

end CatalogAudit.Text.Pattern

namespace CatalogAudit.Scan

open Text Text.Pattern Shape Source

/-! ## Object literals -/

/-- A character of a field's name. -/
def isFieldChar (c : Char) : Bool := isWord c || c == '$'

/-- A character of a value: no quote, no brace and no colon. -/
def isValueChar (c : Char) : Bool :=
  notQuote c && c != '\x7b' && c != '\x7d' && c != ':'

def isSeparator (c : Char) : Bool := isBlank c || c == ','

/-- A field of an object literal, with a quoted value and what separates it from the next. -/
structure ObjectField where
  name : String
  gap : List Char
  quote : Char
  value : String
  separator : List Char
  name_chars : ∀ c ∈ name.toList, isFieldChar c = true
  gap_blank : ∀ c ∈ gap, isBlank c = true
  quote_isQuote : isQuote quote = true
  value_ne_empty : value ≠ ""
  value_chars : ∀ c ∈ value.toList, isValueChar c = true
  separator_chars : ∀ c ∈ separator, isSeparator c = true

/-- `name: 'value'`, and a separator. -/
def ObjectField.text (f : ObjectField) : List Char :=
  f.name.toList ++ ':' :: (f.gap ++ f.quote :: (f.value.toList ++ f.quote :: f.separator))

/-- An object literal that is given to a variable, with distinct names of fields. -/
structure ObjectLiteral where
  owner : String
  gap : List Char
  more : List Char
  lead : List Char
  fields : List ObjectField
  owner_isWordText : IsWordText owner.toList
  gap_blank : ∀ c ∈ gap, isBlank c = true
  more_blank : ∀ c ∈ more, isBlank c = true
  lead_blank : ∀ c ∈ lead, isBlank c = true
  nodup : (fields.map (·.name)).Nodup

/-- What stands between the braces. -/
def ObjectLiteral.body (o : ObjectLiteral) : List Char := o.lead ++ o.fields.flatMap (·.text)

/-- `owner = …` with the fields in braces. -/
def ObjectLiteral.text (o : ObjectLiteral) : List Char :=
  o.owner.toList ++ (o.gap ++ '=' :: (o.more ++ '\x7b' :: (o.body ++ ['\x7d'])))

/-- In a text, after `front`, an object literal is given to a variable. -/
def AssignsAfter (text front : List Char) (owner : String) : Prop :=
  ∃ gap more rest,
    text = front ++ (owner.toList ++ (gap ++ '=' :: (more ++ '\x7b' :: rest))) ∧
      front.getLast?.any isWord = false ∧
      (∀ c ∈ gap, isBlank c = true) ∧ ∀ c ∈ more, isBlank c = true

/-! ## Where `key:` stands -/

def keyMark : List Char := "key:".toList

theorem keyMark_append (cs : List Char) : keyMark ++ cs = "key".toList ++ ':' :: cs := rfl

/-- `key: 'value'`, with the value as a field. -/
def keyValue : Text.Pattern := all [.text keyMark, blanks, quotedField]

/-- Whether the name of a field ends in `key`. -/
def ObjectField.endsInKey (f : ObjectField) : Bool := "key".toList.isSuffixOf f.name.toList

section
variable {xs ys : List Char} {c : Char}

/-- A text that starts with a piece starts with it before any character that the piece does not
hold. -/
theorem prefix_of_prefix_append_cons {s : List Char} (h : s <+: xs ++ c :: ys) (hc : c ∉ s) :
    s <+: xs := by
  obtain ⟨rest, hrest⟩ := h
  rcases List.append_eq_append_iff.1 hrest with ⟨more, rfl, -⟩ | ⟨more, rfl, hcons⟩
  · exact List.prefix_append s more
  · cases more with
    | nil => simp
    | cons x more =>
      obtain ⟨rfl, -⟩ := List.cons.inj hcons
      exact absurd (by simp) hc

/-- The mark does not stand before another character than its first. -/
theorem not_keyMark_prefix_cons (hc : c ≠ 'k') : ¬ keyMark <+: c :: ys := by
  rintro ⟨rest, hrest⟩
  exact hc (List.cons.inj hrest).1.symm

/-- The mark does not stand before a text that goes on with another character before a colon. -/
theorem not_keyMark_prefix_append (hxs : ':' ∉ xs) (hc : c ∉ keyMark) :
    ¬ keyMark <+: xs ++ c :: ys := fun h =>
  hxs ((prefix_of_prefix_append_cons h hc).subset (by decide))

/-- Before a colon stands the mark where `key` does. -/
theorem keyMark_prefix_iff (hxs : ':' ∉ xs) :
    keyMark <+: xs ++ ':' :: ys ↔ xs = "key".toList := by
  constructor
  · rintro ⟨rest, hrest⟩
    have hcolon (zs : List Char) : (':' :: zs).head?.any (· != ':') = false := rfl
    have hall : ∀ x ∈ xs, (x != ':') = true := fun x hx => bne_iff_ne.2 fun h => hxs (h ▸ hx)
    have htake := congrArg (List.takeWhile (· != ':')) hrest
    rw [takeWhile_append_eq hall (hcolon ys)] at htake
    rw [← htake]
    rfl
  · rintro rfl
    exact ⟨ys, rfl⟩

end

/-! ## Reading the fields -/

theorem notBrace_of_class {p : Char → Bool} {c d : Char} (hc : p c = true)
    (hbrace : p '\x7d' = false) (hd : p d = false) : notBrace c = true ∧ c ≠ d :=
  ⟨bne_iff_ne.2 (ne_of_class hc hbrace), ne_of_class hc hd⟩

theorem isQuote_iff {c : Char} : isQuote c = true ↔ c = '\'' ∨ c = '"' := by
  simp [isQuote]

section
variable {α : Type} (g : List (List Char) → α)

/-- How a search goes on after a stretch: with the mark and a quoted value. -/
def afterStretch (c : Cursor) : Option α := keyValue.matchThen c fun found _ => some (g found)

variable {before xs cs : List Char}

theorem afterStretch_of_not_prefix {c : Cursor} (h : ¬ keyMark <+: c.after) :
    afterStretch g c = none := by
  have hfalse : ¬ keyMark.isPrefixOf c.after = true := mt List.isPrefixOf_iff_prefix.1 h
  rw [afterStretch, keyValue, all, List.foldr_cons, matchThen_seq, matchThen, if_neg hfalse]

/-- No mark starts with another character. -/
theorem matchStretch_other (hxs : ∀ x ∈ xs, notBrace x = true ∧ x ≠ 'k') :
    matchStretch notBrace (afterStretch g) before (xs ++ cs) =
      matchStretch notBrace (afterStretch g) (xs.reverse ++ before) cs := by
  refine matchStretch_quiet (fun x hx => (hxs x hx).1) fun us vs hsplit hne => ?_
  obtain ⟨v, vs, rfl⟩ := List.exists_cons_of_ne_nil hne
  have hv : v ≠ 'k' := (hxs v (by simp [hsplit])).2
  exact afterStretch_of_not_prefix g (not_keyMark_prefix_cons hv)

theorem matchStretch_skip {c : Char} (hbrace : notBrace c = true) (hk : c ≠ 'k') :
    matchStretch notBrace (afterStretch g) before (c :: cs) =
      matchStretch notBrace (afterStretch g) (c :: before) cs := by
  have hc : ∀ x ∈ [c], notBrace x = true ∧ x ≠ 'k' := by simpa using ⟨hbrace, hk⟩
  exact matchStretch_other g hc

/-- No mark stands in a run up to a quote. -/
theorem matchStretch_quoted {quote : Char} (hxs : ∀ x ∈ xs, notBrace x = true ∧ x ≠ ':')
    (hquote : isQuote quote = true) :
    matchStretch notBrace (afterStretch g) before (xs ++ quote :: cs) =
      matchStretch notBrace (afterStretch g) (quote :: (xs.reverse ++ before)) cs := by
  have hmark : quote ∉ keyMark := by
    rcases isQuote_iff.1 hquote with rfl | rfl <;> decide
  have hskip : notBrace quote = true ∧ quote ≠ 'k' := by
    rcases isQuote_iff.1 hquote with rfl | rfl <;> decide
  have hrun : matchStretch notBrace (afterStretch g) before (xs ++ quote :: cs) =
      matchStretch notBrace (afterStretch g) (xs.reverse ++ before) (quote :: cs) := by
    refine matchStretch_quiet (fun x hx => (hxs x hx).1) fun us vs hsplit _ => ?_
    have hcolon : ':' ∉ vs := fun h => (hxs ':' (by simp [hsplit, h])).2 rfl
    exact afterStretch_of_not_prefix g (not_keyMark_prefix_append hcolon hmark)
  rw [hrun, matchStretch_skip g hskip.1 hskip.2]

/-- In a run up to a mark only the mark itself counts, and what comes after it counts before
it. -/
theorem matchStretch_mark (hxs : ∀ x ∈ xs, notBrace x = true ∧ x ≠ ':') :
    matchStretch notBrace (afterStretch g) before (xs ++ (keyMark ++ cs)) =
      (matchStretch notBrace (afterStretch g) ("key".toList.reverse ++ (xs.reverse ++ before))
        (':' :: cs)).orElse fun _ => afterStretch g ⟨xs.reverse ++ before, keyMark ++ cs⟩ := by
  have hrun : matchStretch notBrace (afterStretch g) before (xs ++ (keyMark ++ cs)) =
      matchStretch notBrace (afterStretch g) (xs.reverse ++ before) (keyMark ++ cs) := by
    refine matchStretch_quiet (fun x hx => (hxs x hx).1) fun us vs hsplit hne => ?_
    refine afterStretch_of_not_prefix g fun hmark => hne ?_
    have hcolon : ':' ∉ vs ++ "key".toList := by
      intro h
      rcases List.mem_append.1 h with h | h
      · exact (hxs ':' (by simp [hsplit, h])).2 rfl
      · exact absurd h (by decide)
    dsimp only at hmark
    rw [keyMark_append, ← List.append_assoc, keyMark_prefix_iff hcolon] at hmark
    exact List.append_left_eq_self.1 hmark
  have hmark : keyMark ++ cs = 'k' :: 'e' :: 'y' :: ':' :: cs := rfl
  rw [hrun, hmark, matchStretch, if_pos (by decide), matchStretch_skip g (by decide) (by decide),
    matchStretch_skip g (by decide) (by decide)]
  rfl

/-- At the mark a quoted value is taken. -/
theorem afterStretch_mark {gap value : List Char} {quote : Char} (hquote : isQuote quote = true)
    (hgap : ∀ c ∈ gap, isBlank c = true) (hne : value ≠ [])
    (hvalue : ∀ c ∈ value, notQuote c = true) (before cs : List Char) :
    afterStretch g ⟨before, keyMark ++ (gap ++ quote :: (value ++ quote :: cs))⟩ =
      some (g [value]) := by
  have hblank : (quote :: (value ++ quote :: cs)).head?.any isBlank = false := by
    rcases isQuote_iff.1 hquote with rfl | rfl <;> exact any_head?_cons (by decide) _
  have hend : (quote :: cs).head?.any notQuote = false :=
    any_head?_cons (by simp [notQuote, hquote]) cs
  simp only [afterStretch, keyValue, quotedField, all, List.foldr_cons, List.foldr_nil, blanks,
    matchThen_seq, matchThen_text, matchThen_span hgap hblank, matchThen_one hquote,
    matchThen_field hne hvalue hend, matchThen_nothing, List.nil_append, List.append_nil]

end

namespace ObjectField

variable (f : ObjectField)

theorem name_notBrace : ∀ c ∈ f.name.toList, notBrace c = true ∧ c ≠ ':' := fun c hc =>
  notBrace_of_class (f.name_chars c hc) (by decide) (by decide)

theorem gap_notBrace : ∀ c ∈ f.gap, notBrace c = true ∧ c ≠ ':' := fun c hc =>
  notBrace_of_class (f.gap_blank c hc) (by decide) (by decide)

theorem value_notBrace : ∀ c ∈ f.value.toList, notBrace c = true ∧ c ≠ ':' := fun c hc =>
  notBrace_of_class (f.value_chars c hc) (by decide) (by decide)

theorem separator_notBrace : ∀ c ∈ f.separator, notBrace c = true ∧ c ≠ 'k' := fun c hc =>
  notBrace_of_class (f.separator_chars c hc) (by decide) (by decide)

theorem value_notQuote : ∀ c ∈ f.value.toList, notQuote c = true := by
  intro c hc
  have h := f.value_chars c hc
  simp only [isValueChar, Bool.and_eq_true] at h
  exact h.1.1.1

theorem value_toList_ne_nil : f.value.toList ≠ [] :=
  fun h => f.value_ne_empty (String.toList_eq_nil_iff.1 h)

end ObjectField

section
variable {α : Type} (g : List (List Char) → α) (f : ObjectField) (before cs : List Char)

/-- What follows the name of a field. -/
theorem matchStretch_afterName :
    matchStretch notBrace (afterStretch g) before
        (':' :: (f.gap ++ f.quote :: (f.value.toList ++ f.quote :: (f.separator ++ cs)))) =
      matchStretch notBrace (afterStretch g)
        ((':' :: (f.gap ++ f.quote :: (f.value.toList ++ f.quote :: f.separator))).reverse ++
          before)
        cs := by
  rw [matchStretch_skip g (by decide) (by decide), matchStretch_quoted g f.gap_notBrace
    f.quote_isQuote, matchStretch_quoted g f.value_notBrace f.quote_isQuote,
    matchStretch_other g f.separator_notBrace]
  simp

/-- A field counts when its name ends in `key` and no later field is read. -/
theorem matchStretch_field :
    matchStretch notBrace (afterStretch g) before (f.text ++ cs) =
      (matchStretch notBrace (afterStretch g) (f.text.reverse ++ before) cs).orElse fun _ =>
        if f.endsInKey then some (g [f.value.toList]) else none := by
  have htext : f.text ++ cs = f.name.toList ++ ':' ::
      (f.gap ++ f.quote :: (f.value.toList ++ f.quote :: (f.separator ++ cs))) := by
    simp [ObjectField.text]
  have hcolon : ':' ∉ f.name.toList := fun h => (f.name_notBrace _ h).2 rfl
  by_cases hkey : f.endsInKey = true
  · obtain ⟨stem, hstem⟩ := List.isSuffixOf_iff_suffix.1 hkey
    have hname : ∀ c ∈ stem, notBrace c = true ∧ c ≠ ':' := fun c hc =>
      f.name_notBrace c (by simp [← hstem, hc])
    have hmark : f.text ++ cs = stem ++ (keyMark ++
        (f.gap ++ f.quote :: (f.value.toList ++ f.quote :: (f.separator ++ cs)))) := by
      rw [htext, ← hstem, keyMark_append, List.append_assoc]
    rw [hmark, matchStretch_mark g hname, matchStretch_afterName, afterStretch_mark g
      f.quote_isQuote f.gap_blank f.value_toList_ne_nil f.value_notQuote, if_pos hkey]
    simp [ObjectField.text, ← hstem]
  · have hquiet : matchStretch notBrace (afterStretch g) before (f.text ++ cs) =
        matchStretch notBrace (afterStretch g) (f.name.toList.reverse ++ before) (':' ::
          (f.gap ++ f.quote :: (f.value.toList ++ f.quote :: (f.separator ++ cs)))) := by
      rw [htext]
      refine matchStretch_quiet (fun x hx => (f.name_notBrace x hx).1) fun us vs hsplit hne => ?_
      have hvs : ':' ∉ vs := fun h => hcolon (by simp [hsplit, h])
      refine afterStretch_of_not_prefix g fun hmark => hkey ?_
      rw [keyMark_prefix_iff hvs] at hmark
      exact List.isSuffixOf_iff_suffix.2 ⟨us, by rw [hsplit, hmark]⟩
    rw [hquiet, matchStretch_afterName, if_neg hkey]
    simp [ObjectField.text]

/-- Of all fields the last one counts whose name ends in `key`. -/
theorem matchStretch_fields (fields : List ObjectField) :
    matchStretch notBrace (afterStretch g) before (fields.flatMap (·.text) ++ '\x7d' :: cs) =
      ((fields.filter (·.endsInKey)).getLast?).map fun f => g [f.value.toList] := by
  induction fields generalizing before with
  | nil =>
    rw [List.flatMap_nil, List.nil_append, matchStretch_stop (by decide),
      afterStretch_of_not_prefix g (not_keyMark_prefix_cons (by decide))]
    rfl
  | cons f fields ih =>
    rw [List.flatMap_cons, List.append_assoc, matchStretch_field, ih]
    by_cases hkey : f.endsInKey = true
    · rw [List.filter_cons_of_pos hkey, List.getLast?_cons, if_pos hkey]
      cases (fields.filter (·.endsInKey)).getLast? <;> rfl
    · rw [List.filter_cons_of_neg hkey, if_neg hkey]
      cases (fields.filter (·.endsInKey)).getLast? <;> rfl

end

/-- The last field whose name ends in `key`. -/
def ObjectLiteral.lastKey? (o : ObjectLiteral) : Option ObjectField :=
  (o.fields.filter (·.endsInKey)).getLast?

/-- What the shape of a `key` field finds at a literal. -/
theorem match?_literal (o : ObjectLiteral) {before : List Char}
    (hbefore : before.head?.any isWord = false) (cs : List Char) :
    (keyField.match? ⟨before, o.text ++ cs⟩).map (·.1) =
      o.lastKey?.map fun f => [o.owner.toList, f.value.toList] := by
  have htext : o.text ++ cs = o.owner.toList ++ (o.gap ++ '=' :: (o.more ++ '\x7b' ::
      (o.lead ++ (o.fields.flatMap (·.text) ++ '\x7d' :: cs)))) := by
    simp [ObjectLiteral.text, ObjectLiteral.body]
  obtain ⟨hne, howner⟩ := o.owner_isWordText
  have hends (rest : List Char) : (o.gap ++ '=' :: rest).head?.any isWord = false :=
    head?_blanks o.gap_blank (by decide) rest
  have hequals (rest : List Char) : ('=' :: rest).head?.any isBlank = false :=
    any_head?_cons (by decide) rest
  have hbrace (rest : List Char) : ('\x7b' :: rest).head?.any isBlank = false :=
    any_head?_cons (by decide) rest
  have hlead : ∀ c ∈ o.lead, notBrace c = true ∧ c ≠ 'k' := fun c hc =>
    notBrace_of_class (o.lead_blank c hc) (by decide) (by decide)
  rw [match?, ← matchThen_map, htext]
  simp only [keyField, all, List.foldr_cons, List.foldr_nil, blanks, matchThen_seq,
    matchThen_word hne howner hbefore (hends _), matchThen_span o.gap_blank (hequals _),
    matchThen_char, matchThen_span o.more_blank (hbrace _)]
  exact (matchStretch_other (fun found => o.owner.toList :: found) hlead).trans
    (matchStretch_fields _ _ cs o.fields)

/-! ## The traced key -/

/-- A key is traced where the shape of a `key` field matches. -/
theorem mem_tracedKeys {text : List Char} {owner key : String} :
    (owner, key) ∈ tracedKeys text ↔ ∃ front rest, text = front ++ rest ∧
      (keyField.match? ⟨front.reverse, rest⟩).map (·.1) = some [owner.toList, key.toList] := by
  rw [tracedKeys, fieldsEverywhere_eq, List.mem_filterMap]
  constructor
  · rintro ⟨fields, hfields, hpair⟩
    obtain ⟨c, hc, hm⟩ := List.mem_filterMap.1 hfields
    obtain ⟨front, rest, htext, rfl⟩ := mem_places_iff.1 hc
    refine ⟨front, rest, htext, ?_⟩
    split at hpair
    · cases hpair
      rw [hm, String.toList_ofList, String.toList_ofList]
    · cases hpair
  · rintro ⟨front, rest, htext, hm⟩
    have hplace : (⟨front.reverse, rest⟩ : Cursor) ∈ Cursor.places ⟨[], text⟩ :=
      mem_places_iff.2 ⟨front, rest, htext, rfl⟩
    exact ⟨_, List.mem_filterMap.2 ⟨_, hplace, hm⟩, by simp⟩

/-- The shape of a `key` field takes the name of a variable that an object literal is given to,
and a value that is not empty. -/
theorem takes_keyField {c d : Cursor} {fields : List (List Char)}
    (h : Matches keyField c fields d) :
    ∃ owner gap more rest key, fields = [owner, key] ∧ key ≠ [] ∧
      c.before.head?.any isWord = false ∧
      c.after = owner ++ (gap ++ '=' :: (more ++ '\x7b' :: rest)) ∧
      (∀ x ∈ gap, isBlank x = true) ∧ ∀ x ∈ more, isBlank x = true := by
  obtain ⟨_, _, _, name, fromGap, rfl⟩ := matches_seq.1 h
  obtain ⟨_, _, _, first, fromEquals, rfl⟩ := matches_seq.1 fromGap
  obtain ⟨_, _, _, equals, fromMore, rfl⟩ := matches_seq.1 fromEquals
  obtain ⟨_, _, _, second, fromBrace, rfl⟩ := matches_seq.1 fromMore
  obtain ⟨_, stop, _, brace, fromStretch, rfl⟩ := matches_seq.1 fromBrace
  obtain ⟨_, _, _, stretch, fromMark, rfl⟩ := matches_seq.1 fromStretch
  obtain ⟨_, _, _, mark, fromThird, rfl⟩ := matches_seq.1 fromMark
  obtain ⟨_, _, _, third, fromQuoted, rfl⟩ := matches_seq.1 fromThird
  obtain ⟨_, _, _, quoted, finish, rfl⟩ := matches_seq.1 fromQuoted
  obtain ⟨_, _, _, opening, fromField, rfl⟩ := matches_seq.1 quoted
  obtain ⟨_, _, _, field, fromClosing, rfl⟩ := matches_seq.1 fromField
  obtain ⟨_, _, _, closing, finished, rfl⟩ := matches_seq.1 fromClosing
  cases finish
  cases finished
  obtain ⟨owner, -, hbefore, hrest, rfl⟩ := takes_word name
  obtain ⟨gap, hgap, hfirst, rfl⟩ := takes_span first
  obtain ⟨hequals, rfl⟩ := takes_text equals
  obtain ⟨more, hmore, hsecond, rfl⟩ := takes_span second
  obtain ⟨hbrace, rfl⟩ := takes_text brace
  obtain ⟨_, -, -, rfl⟩ := takes_stretch stretch
  obtain ⟨-, rfl⟩ := takes_text mark
  obtain ⟨_, -, -, rfl⟩ := takes_span third
  obtain ⟨_, -, -, rfl⟩ := takes_one opening
  obtain ⟨key, hkey, -, -, rfl⟩ := takes_field field
  obtain ⟨_, -, -, rfl⟩ := takes_one closing
  refine ⟨owner, gap, more, stop.after, key, rfl, hkey, hbefore, ?_, hgap, hmore⟩
  rw [hrest, hfirst, hequals, hsecond, hbrace]
  rfl

/-- A traced key is not empty, and it is that of an object literal given to the variable. -/
theorem assignsAfter_of_match? {front rest : List Char} {owner key : String}
    (h : (keyField.match? ⟨front.reverse, rest⟩).map (·.1) = some [owner.toList, key.toList]) :
    key ≠ "" ∧ AssignsAfter (front ++ rest) front owner := by
  obtain ⟨⟨_, _⟩, hm, hfields⟩ := Option.map_eq_some_iff.1 h
  obtain ⟨name, gap, more, later, value, hnames, hvalue, hbefore, hrest, hgap, hmore⟩ :=
    takes_keyField (match?_sound hm)
  dsimp only at hfields hbefore hrest
  rw [hnames] at hfields
  obtain ⟨rfl, htail⟩ := List.cons.inj hfields
  obtain ⟨rfl, -⟩ := List.cons.inj htail
  refine ⟨fun h => hvalue (by rw [h]; rfl), gap, more, later, by rw [hrest], ?_, hgap, hmore⟩
  simpa using hbefore

/-- Of a text that ends in a word and blanks, the blanks are dropped. -/
theorem dropWhile_reverse_word {word gap : List Char} (hword : IsWordText word)
    (hgap : ∀ c ∈ gap, isBlank c = true) (cs : List Char) :
    (cs ++ word ++ gap).reverse.dropWhile isBlank = (cs ++ word).reverse := by
  obtain ⟨hne, hchars⟩ := hword
  obtain ⟨x, reversed, hx⟩ := List.exists_cons_of_ne_nil (mt List.reverse_eq_nil_iff.1 hne)
  have hmem : x ∈ word := List.mem_reverse.1 (hx ▸ List.mem_cons_self)
  rw [List.reverse_append, List.reverse_append, hx]
  refine dropWhile_append_eq (by simpa using hgap) ?_
  exact any_head?_cons (isBlank_eq_false_of_isWord (hchars x hmem)) _

/-- Where the equals sign of a literal is the only one in a text, no other literal is given to
its owner. -/
theorem assignsAfter_iff (o : ObjectLiteral) {front rest : List Char}
    (hbefore : front.getLast?.any isWord = false) (hfront : '=' ∉ front)
    (hlater : '=' ∉ o.body ++ rest) (other : List Char) :
    AssignsAfter (front ++ (o.text ++ rest)) other o.owner ↔ other = front := by
  have hfrontText : front ++ (o.text ++ rest) = (front ++ o.owner.toList ++ o.gap) ++
      '=' :: (o.more ++ '\x7b' :: (o.body ++ '\x7d' :: rest)) := by
    simp [ObjectLiteral.text]
  constructor
  · rintro ⟨gap, more, later, htext, -, hgap, -⟩
    have hpiece : '=' ∉ front ++ o.owner.toList ++ o.gap := by
      simp only [List.mem_append, not_or]
      exact ⟨⟨hfront, fun h => absurd (o.owner_isWordText.2 _ h) (by decide)⟩,
        fun h => absurd (o.gap_blank _ h) (by decide)⟩
    have hrest : '=' ∉ o.more ++ '\x7b' :: (o.body ++ '\x7d' :: rest) := by
      simp only [List.mem_append, List.mem_cons, not_or] at hlater ⊢
      exact ⟨fun h => absurd (o.more_blank _ h) (by decide), by decide, hlater.1, by decide,
        hlater.2⟩
    -- the equals signs are one and the same, so what stands before them is, too
    have hsame : front ++ o.owner.toList ++ o.gap = other ++ o.owner.toList ++ gap := by
      rw [hfrontText, ← List.append_assoc, ← List.append_assoc] at htext
      exact ((List.append_cons_inj_of_notMem hpiece hrest).1 htext).1
    have howners := congrArg (List.dropWhile isBlank) (congrArg List.reverse hsame)
    rw [dropWhile_reverse_word o.owner_isWordText o.gap_blank,
      dropWhile_reverse_word o.owner_isWordText hgap] at howners
    exact (List.append_cancel_right (List.reverse_injective howners)).symm
  · rintro rfl
    exact ⟨o.gap, o.more, o.body ++ '\x7d' :: rest, by simp [ObjectLiteral.text], hbefore,
      o.gap_blank, o.more_blank⟩

namespace ObjectLiteral

variable (o : ObjectLiteral)

/-- The field named `key` counts when none counts whose name is longer. -/
theorem lastKey?_eq_find? (h : ∀ f ∈ o.lastKey?, f.name = "key") :
    o.lastKey? = o.fields.find? (·.name = "key") := by
  have hends {f : ObjectField} (hf : f.name = "key") : f.endsInKey = true := by
    rw [ObjectField.endsInKey, hf]
    decide
  cases hlast : o.lastKey? with
  | none =>
    have hnone : ∀ f ∈ o.fields, ¬ f.endsInKey = true :=
      List.filter_eq_nil_iff.1 (List.getLast?_eq_none_iff.1 hlast)
    symm
    rw [List.find?_eq_none]
    intro f hf hname
    exact hnone f hf (hends (by simpa using hname))
  | some f =>
    have hf : f ∈ o.fields := List.mem_of_mem_filter (List.mem_of_getLast? hlast)
    have hname : f.name = "key" := h f hlast
    symm
    have hfound : (o.fields.find? (·.name = "key")).isSome :=
      List.find?_isSome.2 ⟨f, hf, by simpa using hname⟩
    obtain ⟨g, hg⟩ := Option.isSome_iff_exists.1 hfound
    have hgname : g.name = "key" := by simpa using List.find?_some hg
    rw [hg, List.inj_on_of_nodup_map o.nodup (List.mem_of_find?_eq_some hg) hf
      (hgname.trans hname.symm)]

end ObjectLiteral

/-- The key that is traced through a variable, given one object literal, is the value of the
last field whose name ends in `key`. So it is that of the field named `key`, if there is one,
unless a later name ends so; and there is none when no name ends so. -/
theorem traced_key_is_last_ending (o : ObjectLiteral) (front rest : List Char)
    (honce : ∀ other, AssignsAfter (front ++ (o.text ++ rest)) other o.owner ↔ other = front) :
    tracedKey? (front ++ (o.text ++ rest)) o.owner = o.lastKey?.map (·.value) ∧
      ((∀ f ∈ o.lastKey?, f.name = "key") →
        tracedKey? (front ++ (o.text ++ rest)) o.owner =
          (o.fields.find? (·.name = "key")).map (·.value)) := by
  obtain ⟨-, -, -, -, hbefore, -⟩ := (honce front).2 rfl
  have hliteral : (keyField.match? ⟨front.reverse, o.text ++ rest⟩).map (·.1) =
      o.lastKey?.map fun f => [o.owner.toList, f.value.toList] :=
    match?_literal o (by simpa using hbefore) rest
  have htraced : tracedKey? (front ++ (o.text ++ rest)) o.owner = o.lastKey?.map (·.value) := by
    refine Assoc.value?_eq_of_mem_iff fun key => ?_
    rw [mem_tracedKeys]
    constructor
    · rintro ⟨other, cs, htext, hm⟩
      obtain rfl : other = front := (honce other).1 (htext ▸ (assignsAfter_of_match? hm).2)
      obtain rfl : o.text ++ rest = cs := List.append_cancel_left htext
      rw [hliteral] at hm
      obtain ⟨f, hf, hfields⟩ := Option.map_eq_some_iff.1 hm
      have hvalue : f.value.toList = key.toList := by simpa using hfields
      rw [hf, Option.map_some, String.toList_injective hvalue]
    · intro hkey
      obtain ⟨f, hf, rfl⟩ := Option.map_eq_some_iff.1 hkey
      exact ⟨front, o.text ++ rest, rfl, by rw [hliteral, hf]; rfl⟩
  exact ⟨htraced, fun h => by rw [htraced, o.lastKey?_eq_find? h]⟩

def journeyField : ObjectField where
  name := "key"
  gap := [' ']
  quote := '\''
  value := "journey"
  separator := [',', ' ']
  name_chars := List.all_eq_true.1 (by decide)
  gap_blank := List.all_eq_true.1 (by decide)
  quote_isQuote := by decide
  value_ne_empty := by decide
  value_chars := List.all_eq_true.1 (by decide)
  separator_chars := List.all_eq_true.1 (by decide)

def hotkeyField : ObjectField where
  name := "hotkey"
  gap := [' ']
  quote := '\''
  value := "j"
  separator := [',', ' ']
  name_chars := List.all_eq_true.1 (by decide)
  gap_blank := List.all_eq_true.1 (by decide)
  quote_isQuote := by decide
  value_ne_empty := by decide
  value_chars := List.all_eq_true.1 (by decide)
  separator_chars := List.all_eq_true.1 (by decide)

/-- `item = { … }` with these fields. -/
def itemLiteral (fields : List ObjectField) (nodup : (fields.map (·.name)).Nodup) :
    ObjectLiteral where
  owner := "item"
  gap := [' ']
  more := [' ']
  lead := [' ']
  fields := fields
  owner_isWordText := ⟨by decide, List.all_eq_true.1 (by decide)⟩
  gap_blank := List.all_eq_true.1 (by decide)
  more_blank := List.all_eq_true.1 (by decide)
  lead_blank := List.all_eq_true.1 (by decide)
  nodup := nodup

theorem traced_key_is_last_ending_journey :
    let text := "const item = \x7b hotkey: 'j', key: 'journey', \x7d;".toList
    (∀ other, AssignsAfter text other "item" ↔ other = "const ".toList) ∧
      tracedKey? text "item" = some "journey" := by
  intro text
  let o := itemLiteral [hotkeyField, journeyField] (by decide)
  have honce : ∀ other, AssignsAfter ("const ".toList ++ (o.text ++ [';'])) other o.owner ↔
      other = "const ".toList :=
    assignsAfter_iff o (by decide) (by decide) (by decide)
  have hlast : ∀ f ∈ o.lastKey?, f.name = "key" := by decide
  have htext : text = "const ".toList ++ (o.text ++ [';']) := by decide
  rw [htext]
  exact ⟨honce, (traced_key_is_last_ending o "const ".toList [';'] honce).2 hlast⟩

/-- A field whose name only ends in `key` may be taken for the one named so. -/
theorem traced_key_may_be_another :
    ¬ ∀ (o : ObjectLiteral) (front rest : List Char),
      (∀ other, AssignsAfter (front ++ (o.text ++ rest)) other o.owner ↔ other = front) →
      tracedKey? (front ++ (o.text ++ rest)) o.owner =
        (o.fields.find? (·.name = "key")).map (·.value) := by
  intro h
  let o := itemLiteral [journeyField, hotkeyField] (by decide)
  have hkey := h o "const ".toList [';'] (assignsAfter_iff o (by decide) (by decide) (by decide))
  revert hkey
  decide +kernel

end CatalogAudit.Scan
