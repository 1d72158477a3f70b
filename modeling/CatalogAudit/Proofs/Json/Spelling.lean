/-
  CatalogAudit.Proofs.Json.Spelling — texts of items and of members that read back.

  A text spells a value for a step when the step takes just that text and gives that value,
  after any blanks and whatever comes after it (`Spells`). Items that are spelled are read from
  between brackets, in either layout (`readItems_bracketed`). So are members from between
  braces, when what comes after each key takes the reader from one state to the next
  (`ReadsMembers`, `readMembers_bracketed`).
-/

import CatalogAudit.Json.Typed
import CatalogAudit.Proofs.Json.Lexemes

namespace CatalogAudit

open Text

theorem Text.join_cons (sep piece : List Char) (pieces : List (List Char)) :
    join sep (piece :: pieces) = piece ++ pieces.flatMap (sep ++ ·) := by
  induction pieces generalizing piece with
  | nil => simp [join]
  | cons next pieces ih => simp [join, ih]

namespace Json

variable {α σ : Type} {layout : Layout} {outer depth : Nat} {blank text : List Char}

/-! ## Blanks -/

def IsBlank (blank : List Char) : Prop := ∀ c ∈ blank, isSpace c = true

theorem skipSpace_cons {c : Char} (h : isSpace c = false) (cs : List Char) :
    skipSpace (c :: cs) = c :: cs := by
  simp [skipSpace, h]

theorem skipSpace_blank (h : IsBlank blank) (cs : List Char) :
    skipSpace (blank ++ cs) = skipSpace cs :=
  List.dropWhile_append_of_pos h

theorem isBlank_nil : IsBlank [] := fun _ h => nomatch h

theorem isBlank_line (layout : Layout) (depth : Nat) : IsBlank (layout.line depth) := by
  intro c h
  cases layout with
  | compact => cases h
  | pretty =>
    rcases List.mem_cons.1 h with rfl | h
    · rfl
    · rw [(List.mem_replicate.1 h).2]
      rfl

theorem exists_colon_eq (layout : Layout) :
    ∃ blank, IsBlank blank ∧ layout.colon = ':' :: blank := by
  cases layout with
  | compact => exact ⟨[], isBlank_nil, rfl⟩
  | pretty => exact ⟨[' '], by simp [IsBlank, isSpace], rfl⟩

theorem endsNumber_cons {c : Char} (hdigit : c.isDigit = false) (hpoint : c ≠ '.')
    (hmark : isExponentMark c = false) (cs : List Char) : EndsNumber (c :: cs) := by
  intro d hd
  cases hd
  exact ⟨hdigit, hpoint, hmark⟩

theorem endsNumber_blank (h : IsBlank blank) {cs : List Char} (hcs : EndsNumber cs) :
    EndsNumber (blank ++ cs) := by
  cases blank with
  | nil => exact hcs
  | cons c blank =>
    have hc := h c List.mem_cons_self
    simp only [isSpace, Bool.or_eq_true, beq_iff_eq] at hc
    rcases hc with ((rfl | rfl) | rfl) | rfl <;> exact endsNumber_cons rfl (by decide) rfl _

/-! ## Spelling -/

/-- A text that a step reads as `a`, after any blanks and whatever comes after it. -/
structure Spells (step : Step α) (text : List Char) (a : α) : Prop where
  starts : ∃ c cs, text = c :: cs ∧ isSpace c = false ∧ c ≠ ']'
  reads : ∀ blank rest, IsBlank blank → EndsNumber rest →
    step (blank ++ (text ++ rest)) = .ok (a, rest)

theorem Spells.reads_here {step : Step α} {a : α} (h : Spells step text a) {rest : List Char}
    (hrest : EndsNumber rest) : step (text ++ rest) = .ok (a, rest) :=
  h.reads [] rest isBlank_nil hrest

/-- A value is read by its first character, whatever blanks come before it. -/
theorem spells_byFirst {read : Char → List Char → Except Failure (α × List Char)} {c : Char}
    {cs : List Char} {a : α} (hspace : isSpace c = false) (hclose : c ≠ ']')
    (h : ∀ rest, EndsNumber rest → read c (cs ++ rest) = .ok (a, rest)) :
    Spells (byFirst read) (c :: cs) a where
  starts := ⟨c, cs, rfl, hspace, hclose⟩
  reads blank rest hblank hrest := by
    rw [byFirst, skipSpace_blank hblank, List.cons_append, skipSpace_cons hspace]
    exact h rest hrest

/-! ## Containers -/

/-- What stands after an item of a container, or a member. -/
def tailText (layout : Layout) (outer : Nat) (texts : List (List Char)) (closing : Char)
    (rest : List Char) : List Char :=
  texts.flatMap (fun text => ',' :: layout.line (outer + 1) ++ text) ++
    (layout.line outer ++ closing :: rest)

theorem tailText_cons (layout : Layout) (outer : Nat) (text : List Char) (texts : List (List Char))
    (closing : Char) (rest : List Char) :
    tailText layout outer (text :: texts) closing rest =
      ',' :: layout.line (outer + 1) ++ (text ++ tailText layout outer texts closing rest) := by
  simp [tailText]

theorem endsNumber_tailText (layout : Layout) (outer : Nat) (texts : List (List Char))
    {closing : Char} (hclosing : EndsNumber [closing]) (rest : List Char) :
    EndsNumber (tailText layout outer texts closing rest) := by
  cases texts with
  | nil => exact endsNumber_blank (isBlank_line layout outer) fun c hc => hclosing c hc
  | cons text texts => exact endsNumber_cons rfl (by decide) rfl _

theorem length_lt_tailText (layout : Layout) (outer : Nat) (texts : List (List Char))
    (closing : Char) (rest : List Char) :
    texts.length < (tailText layout outer texts closing rest).length := by
  induction texts with
  | nil =>
    simp only [tailText, List.flatMap_nil, List.nil_append, List.length_append, List.length_cons,
      List.length_nil]
    omega
  | cons text texts ih =>
    rw [tailText_cons]
    simp only [List.length_cons, List.length_append] at ih ⊢
    omega

/-- A container with something in it is written as its first item and what comes after. -/
theorem bracketed_cons (layout : Layout) (outer : Nat) (opening closing : Char)
    (text : List Char) (texts : List (List Char)) (rest : List Char) :
    bracketed layout outer opening closing (text :: texts) ++ rest =
      opening :: (layout.line (outer + 1) ++
        (text ++ tailText layout outer texts closing rest)) := by
  rw [bracketed, if_neg (by simp), List.map_cons, join_cons, List.flatMap_map]
  simp [tailText]

theorem exists_bracketed_eq (layout : Layout) (outer : Nat) (opening closing : Char)
    (texts : List (List Char)) :
    ∃ cs, bracketed layout outer opening closing texts = opening :: cs := by
  cases texts with
  | nil => exact ⟨_, rfl⟩
  | cons text texts =>
    have htext := bracketed_cons layout outer opening closing text texts []
    rw [List.append_nil] at htext
    exact ⟨_, htext⟩

/-- A container is read from its opening bracket on. -/
theorem spells_bracketed {read : Char → List Char → Except Failure (α × List Char)}
    {opening closing : Char} {texts : List (List Char)} {a : α} (hspace : isSpace opening = false)
    (hclose : opening ≠ ']')
    (h : ∀ rest, ∃ cs, bracketed layout outer opening closing texts ++ rest = opening :: cs ∧
      read opening cs = .ok (a, rest)) :
    Spells (byFirst read) (bracketed layout outer opening closing texts) a := by
  obtain ⟨cs, hcs⟩ := exists_bracketed_eq layout outer opening closing texts
  simp only [hcs, List.cons_append, List.cons.injEq, true_and, exists_eq_left'] at h
  rw [hcs]
  exact spells_byFirst hspace hclose fun rest _ => h rest

/-! ## Lists -/

section
variable {item : Step α} {write : α → List Char} {a : α} {items : List α}

theorem nextItem_close (layout : Layout) (outer : Nat) (first : Bool) (rest : List Char) :
    nextItem first (layout.line outer ++ ']' :: rest) = .ok (false, ']' :: rest) := by
  rw [nextItem, skipSpace_blank (isBlank_line layout outer), skipSpace_cons rfl]
  rfl

theorem nextItem_first (h : Spells item text a) (layout : Layout) (inner : Nat)
    (rest : List Char) :
    nextItem true (layout.line inner ++ (text ++ rest)) = .ok (true, text ++ rest) := by
  obtain ⟨c, cs, rfl, hspace, hclose⟩ := h.starts
  rw [nextItem, skipSpace_blank (isBlank_line layout inner), List.cons_append,
    skipSpace_cons hspace]
  simp

theorem nextItem_comma (h : Spells item text a) (layout : Layout) (inner : Nat)
    (rest : List Char) :
    nextItem false (',' :: layout.line inner ++ (text ++ rest)) = .ok (true, text ++ rest) := by
  obtain ⟨c, cs, rfl, hspace, hclose⟩ := h.starts
  rw [nextItem, List.cons_append, skipSpace_cons rfl]
  simp [skipSpace_blank (isBlank_line layout inner), skipSpace_cons hspace, hclose]

theorem readItemsWithin_cons (h : Spells item text a) {first : Bool} {cs tail rest : List Char}
    (hnext : nextItem first cs = .ok (true, text ++ tail)) (htail : EndsNumber tail) (b : Char)
    {bound : List Char} (hrest : readItemsWithin item bound false tail = .ok (items, rest)) :
    readItemsWithin item (b :: bound) first cs = .ok (a :: items, rest) := by
  simp [readItemsWithin, hnext, h.reads_here htail, hrest, bind, Except.bind]

theorem readItemsWithin_tailText (h : ∀ a ∈ items, Spells item (write a) a) (layout : Layout)
    (outer : Nat) {bound : List Char} (hbound : items.length < bound.length) (rest : List Char) :
    readItemsWithin item bound false (tailText layout outer (items.map write) ']' rest) =
      .ok (items, rest) := by
  induction items generalizing bound with
  | nil =>
    obtain ⟨b, bound, rfl⟩ := List.exists_cons_of_length_pos hbound
    simp [readItemsWithin, tailText, nextItem_close, bind, Except.bind]
  | cons a items ih =>
    obtain ⟨b, bound, rfl⟩ := List.exists_cons_of_length_pos (Nat.zero_lt_of_lt hbound)
    obtain ⟨ha, hitems⟩ := List.forall_mem_cons.1 h
    rw [List.map_cons, tailText_cons]
    exact readItemsWithin_cons ha (nextItem_comma ha layout (outer + 1) _)
      (endsNumber_tailText layout outer _ (endsNumber_cons rfl (by decide) rfl _) rest) b
      (ih hitems (Nat.lt_of_succ_lt_succ hbound))

/-- Items that are spelled are read from between their brackets. -/
theorem readItems_bracketed (h : ∀ a ∈ items, Spells item (write a) a) (layout : Layout)
    (outer : Nat) (rest : List Char) :
    ∃ cs, bracketed layout outer '[' ']' (items.map write) ++ rest = '[' :: cs ∧
      readItems item cs = .ok (items, rest) := by
  cases items with
  | nil =>
    refine ⟨']' :: rest, rfl, ?_⟩
    simp [readItems, readItemsWithin, nextItem, skipSpace_cons, isSpace, bind, Except.bind]
  | cons a items =>
    obtain ⟨ha, hitems⟩ := List.forall_mem_cons.1 h
    refine ⟨_, bracketed_cons layout outer '[' ']' (write a) (items.map write) rest, ?_⟩
    have hlength := length_lt_tailText layout outer (items.map write) ']' rest
    obtain ⟨c, cs, hc, -⟩ := ha.starts
    unfold readItems
    generalize hbound : layout.line (outer + 1) ++ (write a ++ _) = bound
    have hlonger := congrArg List.length hbound
    rw [hc] at hlonger
    simp only [List.length_append, List.length_cons, List.length_map] at hlonger hlength
    cases bound with
    | nil => simp at hlonger
    | cons b bound =>
      rw [List.length_cons] at hlonger
      exact readItemsWithin_cons ha (hbound ▸ nextItem_first ha layout (outer + 1) _)
        (endsNumber_tailText layout outer _ (endsNumber_cons rfl (by decide) rfl _) rest) b
        (readItemsWithin_tailText hitems layout outer (by omega) rest)

end

/-! ## Objects -/

section
variable {member : String → σ → Step σ} {s s' s'' : σ} {key : String}
  {entries : List (String × List Char)}

theorem nextKey_close (layout : Layout) (outer : Nat) (first : Bool) (rest : List Char) :
    nextKey first (layout.line outer ++ '\x7d' :: rest) = .ok (false, '\x7d' :: rest) := by
  rw [nextKey, skipSpace_blank (isBlank_line layout outer), skipSpace_cons rfl]
  rfl

theorem nextKey_first (layout : Layout) (inner : Nat) (rest : List Char) :
    nextKey true (layout.line inner ++ '"' :: rest) = .ok (true, rest) := by
  rw [nextKey, skipSpace_blank (isBlank_line layout inner), skipSpace_cons rfl]
  rfl

theorem nextKey_comma (layout : Layout) (inner : Nat) (rest : List Char) :
    nextKey false (',' :: layout.line inner ++ '"' :: rest) = .ok (true, rest) := by
  rw [nextKey, List.cons_append, skipSpace_cons rfl]
  simp [skipSpace_blank (isBlank_line layout inner), skipSpace_cons, isSpace]

theorem readColon_colon (layout : Layout) :
    ∃ blank, IsBlank blank ∧ ∀ cs, readColon (layout.colon ++ cs) = .ok ((), blank ++ cs) := by
  obtain ⟨blank, hblank, hcolon⟩ := exists_colon_eq layout
  refine ⟨blank, hblank, fun cs => ?_⟩
  rw [hcolon, List.cons_append, readColon, skipSpace_cons rfl]
  rfl

/-- A key, and a text after its colon. -/
def entryText (layout : Layout) (entry : String × List Char) : List Char :=
  stringText entry.1 ++ layout.colon ++ entry.2

theorem entryText_append (layout : Layout) (key : String) (text rest : List Char) :
    entryText layout (key, text) ++ rest =
      '"' :: (key.toList.flatMap escapeChar ++ '"' :: (layout.colon ++ (text ++ rest))) := by
  simp [entryText, stringText]

/-- What comes after each key is read in turn, from one state to the next. -/
inductive ReadsMembers (member : String → σ → Step σ) (layout : Layout) :
    (entries : List (String × List Char)) → σ → σ → Prop
  | nil {s : σ} : ReadsMembers member layout [] s s
  | cons {key : String} {text : List Char} {entries : List (String × List Char)} {s s' s'' : σ}
      (first : ∀ rest, EndsNumber rest →
        member key s (layout.colon ++ (text ++ rest)) = .ok (s', rest))
      (others : ReadsMembers member layout entries s' s'') :
      ReadsMembers member layout ((key, text) :: entries) s s''

theorem readMembersWithin_cons {tail rest : List Char}
    (hmember : member key s (layout.colon ++ (text ++ tail)) = .ok (s', tail)) {first : Bool}
    {cs : List Char}
    (hnext : nextKey first cs = .ok (true, key.toList.flatMap escapeChar ++
      '"' :: (layout.colon ++ (text ++ tail)))) (b : Char) {bound : List Char}
    (hrest : readMembersWithin member bound false s' tail = .ok (s'', rest)) :
    readMembersWithin member (b :: bound) first s cs = .ok (s'', rest) := by
  have hkey := readString_escaped key (layout.colon ++ (text ++ tail))
  simp [readMembersWithin, hnext, hkey, hmember, hrest, bind, Except.bind]

theorem readMembersWithin_tailText (h : ReadsMembers member layout entries s s') (outer : Nat)
    {bound : List Char} (hbound : entries.length < bound.length) (rest : List Char) :
    readMembersWithin member bound false s
      (tailText layout outer (entries.map (entryText layout)) '\x7d' rest) = .ok (s', rest) := by
  induction h generalizing bound with
  | nil =>
    obtain ⟨b, bound, rfl⟩ := List.exists_cons_of_length_pos hbound
    simp [readMembersWithin, tailText, nextKey_close, bind, Except.bind]
  | cons first others ih =>
    obtain ⟨b, bound, rfl⟩ := List.exists_cons_of_length_pos (Nat.zero_lt_of_lt hbound)
    rw [List.map_cons, tailText_cons, entryText_append]
    exact readMembersWithin_cons
      (first _ (endsNumber_tailText layout outer _ (endsNumber_cons rfl (by decide) rfl _) rest))
      (nextKey_comma layout (outer + 1) _) b (ih (Nat.lt_of_succ_lt_succ hbound))

/-- Members are read from between their braces. -/
theorem readMembers_bracketed (h : ReadsMembers member layout entries s s') (outer : Nat)
    (rest : List Char) :
    ∃ cs, bracketed layout outer '\x7b' '\x7d' (entries.map (entryText layout)) ++ rest =
        '\x7b' :: cs ∧ readMembersWithin member cs true s cs = .ok (s', rest) := by
  cases h with
  | nil =>
    refine ⟨'\x7d' :: rest, rfl, ?_⟩
    simp [readMembersWithin, nextKey, skipSpace_cons, isSpace, bind, Except.bind]
  | @cons key text entries _ _ _ first others =>
    refine ⟨_, bracketed_cons layout outer '\x7b' '\x7d' (entryText layout (key, text))
      (entries.map (entryText layout)) rest, ?_⟩
    have hlength := length_lt_tailText layout outer (entries.map (entryText layout)) '\x7d' rest
    rw [entryText_append]
    generalize hbound : layout.line (outer + 1) ++ '"' :: _ = bound
    have hlonger := congrArg List.length hbound
    simp only [List.length_append, List.length_cons, List.length_map] at hlonger hlength
    cases bound with
    | nil => simp at hlonger
    | cons b bound =>
      rw [List.length_cons] at hlonger
      exact readMembersWithin_cons
        (first _ (endsNumber_tailText layout outer _ (endsNumber_cons rfl (by decide) rfl _) rest))
        (hbound ▸ nextKey_first layout (outer + 1) _) b
        (readMembersWithin_tailText others outer (by omega) rest)

end

end Json

end CatalogAudit
