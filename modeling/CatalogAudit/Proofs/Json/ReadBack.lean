/-
  CatalogAudit.Proofs.Json.ReadBack — a value that is written reads back.

  Words, strings and integers are spelled for the reader of values; with them lists and objects
  are, whose items and members are; so every value is whose numbers are integers and whose
  containers the reader follows (`spells_written`). A catalog that was written thus has the
  entries of the catalog (`rootOfText_text`).
-/

import CatalogAudit.Catalog.Basic
import CatalogAudit.Proofs.Json.Nesting
import CatalogAudit.Proofs.Json.Spelling

namespace CatalogAudit

open Text

namespace Json

/-! ## Words, numbers and strings -/

theorem readValue_zero :
    readValue 0 = byFirst fun c rest =>
      if c = '[' || c = '\x7b' then failOn .tooDeep (c :: rest) else readScalar c rest := rfl

theorem readValue_succ (depth : Nat) :
    readValue (depth + 1) = byFirst fun c rest =>
      if c = '[' then (readItems (readValue depth) rest).map fun r => (.arr r.1, r.2)
      else if c = '\x7b' then (readMembers (readValue depth) rest).map fun r => (.obj r.1, r.2)
      else readScalar c rest := rfl

theorem spells_scalar {depth : Nat} {c : Char} {cs : List Char} {v : Json}
    (hspace : isSpace c = false) (hlist : c ≠ ']') (harr : c ≠ '[') (hobj : c ≠ '\x7b')
    (h : ∀ rest, EndsNumber rest → readScalar c (cs ++ rest) = .ok (v, rest)) :
    Spells (readValue depth) (c :: cs) v := by
  cases depth with
  | zero =>
    rw [readValue_zero]
    exact spells_byFirst hspace hlist fun rest hrest => by simp [harr, hobj, h rest hrest]
  | succ depth =>
    rw [readValue_succ]
    exact spells_byFirst hspace hlist fun rest hrest => by simp [harr, hobj, h rest hrest]

theorem spells_null (depth : Nat) : Spells (readValue depth) ['n', 'u', 'l', 'l'] .null :=
  spells_scalar rfl (by decide) (by decide) (by decide) fun _ _ => rfl

theorem spells_true (depth : Nat) : Spells (readValue depth) ['t', 'r', 'u', 'e'] (.bool true) :=
  spells_scalar rfl (by decide) (by decide) (by decide) fun _ _ => rfl

theorem spells_false (depth : Nat) :
    Spells (readValue depth) ['f', 'a', 'l', 's', 'e'] (.bool false) :=
  spells_scalar rfl (by decide) (by decide) (by decide) fun _ _ => rfl

theorem spells_str (depth : Nat) (s : String) :
    Spells (readValue depth) (stringText s) (.str s) := by
  refine spells_scalar rfl (by decide) (by decide) (by decide) fun rest _ => ?_
  have hread := readString_escaped s rest
  simp [readScalar, hread, Except.map]

theorem integer_natAbs {n : Int} (hn : isWord n = true) : integer (n < 0) n.natAbs = .int n := by
  have hn := isWord_iff.1 hn
  unfold integer
  split
  · next h =>
    simp only [Bool.not_eq_true', decide_eq_false_iff_not] at h
    rw [Int.natAbs_of_nonneg (by omega)]
  · next h =>
    simp only [Bool.not_eq_true', decide_eq_false_iff_not, Decidable.not_not] at h
    rw [if_neg (by omega), if_pos (by omega), Int.ofNat_natAbs_of_nonpos (by omega), Int.neg_neg]

theorem spells_int (depth : Nat) {n : Int} (hn : isWord n = true) :
    Spells (readValue depth) (intText n) (.num (.int n)) := by
  have hvalue := integer_natAbs hn
  have hle : n.natAbs ≤ wordMax := by
    rw [wordMax]
    have := isWord_iff.1 hn
    omega
  unfold intText
  split
  · next h =>
    refine spells_scalar rfl (by decide) (by decide) (by decide) fun rest hrest => ?_
    have hread := readDigits_toDigits true hle hrest
    simp only [h, decide_true] at hvalue
    simp [readScalar, hread, hvalue, Except.map]
  · next h =>
    obtain ⟨c, cs, hcs⟩ := List.exists_cons_of_ne_nil
      (Nat.toDigits_ne_nil (n := n.natAbs) (b := 10))
    have hdigit : c.isDigit = true :=
      Nat.isDigit_of_mem_toDigits (by decide) (by decide) (hcs ▸ List.mem_cons_self)
    rw [hcs]
    have hne : ∀ d : Char, d.isDigit = false → c ≠ d := fun d hd e => by simp [← e, hdigit] at hd
    refine spells_scalar ?_ (hne _ rfl) (hne _ rfl) (hne _ rfl) fun rest hrest => ?_
    · simp [isSpace, hne]
    · have hread := readDigits_toDigits false hle hrest
      rw [hcs, List.cons_append] at hread
      simp only [h, decide_false] at hvalue
      simp [readScalar, hne, hdigit, hread, hvalue, Except.map]

/-! ## Containers -/

theorem writtenItems_eq (layout : Layout) (depth : Nat) (items : List Json) :
    writtenItems layout depth items = items.map (written layout depth) := by
  induction items with
  | nil => rfl
  | cons v vs ih => rw [writtenItems, ih, List.map_cons]

/-- A list whose items are spelled is spelled. -/
theorem spells_arr {depth : Nat} {layout : Layout} {outer : Nat} {items : List Json}
    (h : ∀ v ∈ items, Spells (readValue depth) (written layout (outer + 1) v) v) :
    Spells (readValue (depth + 1)) (written layout outer (.arr items)) (.arr items) := by
  rw [written, writtenItems_eq, readValue_succ]
  refine spells_bracketed rfl (by decide) fun rest => ?_
  obtain ⟨cs, hcs, hread⟩ := readItems_bracketed h layout outer rest
  exact ⟨cs, hcs, by simp [hread, Except.map]⟩

theorem readMember_colon {depth : Nat} {text : List Char} {v : Json}
    (h : Spells (readValue depth) text v) (layout : Layout) (key : String) (ms : Members)
    {rest : List Char} (hrest : EndsNumber rest) :
    readMember (readValue depth) key ms (layout.colon ++ (text ++ rest)) =
      .ok (ms.put key v, rest) := by
  obtain ⟨blank, hblank, hcolon⟩ := readColon_colon layout
  simp [readMember, hcolon, h.reads blank rest hblank hrest, bind, Except.bind]

/-- Members with new keys are put after those that have been read. -/
theorem readsMembers_put {depth : Nat} {layout : Layout} {outer : Nat} {ms : Members}
    (h : ∀ m ∈ ms, Spells (readValue depth) (written layout outer m.2) m.2) (before : Members)
    (hd : (before ++ ms).names.Nodup) :
    ReadsMembers (readMember (readValue depth)) layout
      (ms.map fun m => (m.1, written layout outer m.2)) before (before ++ ms) := by
  induction ms generalizing before with
  | nil =>
    rw [List.append_nil]
    exact .nil
  | cons m ms ih =>
    obtain ⟨key, v⟩ := m
    obtain ⟨hv, hms⟩ := List.forall_mem_cons.1 h
    have hnew : key ∉ before.names := by
      rw [Assoc.names, List.map_append, List.nodup_append] at hd
      exact fun hk => hd.2.2 key hk key List.mem_cons_self rfl
    have hput : before.put key v ++ ms = before ++ (key, v) :: ms := by
      rw [Assoc.put_of_not_mem hnew, List.append_assoc, List.singleton_append]
    have hothers := ih hms (before.put key v) (hput ▸ hd)
    rw [hput] at hothers
    exact .cons (fun rest hrest => readMember_colon hv layout key before hrest) hothers

theorem writtenMembers_eq (layout : Layout) (depth : Nat) (ms : Members) :
    writtenMembers layout depth ms =
      (ms.map fun m => (m.1, written layout depth m.2)).map (entryText layout) := by
  induction ms with
  | nil => rfl
  | cons m ms ih =>
    obtain ⟨key, v⟩ := m
    rw [writtenMembers, ih, writtenMember]
    rfl

/-- An object whose members are spelled is spelled. -/
theorem spells_obj {depth : Nat} {layout : Layout} {outer : Nat} {ms : Members}
    (hd : ms.names.Nodup)
    (h : ∀ m ∈ ms, Spells (readValue depth) (written layout (outer + 1) m.2) m.2) :
    Spells (readValue (depth + 1)) (written layout outer (.obj ms)) (.obj ms) := by
  rw [written, writtenMembers_eq, readValue_succ]
  refine spells_bracketed rfl (by decide) fun rest => ?_
  obtain ⟨cs, hcs, hread⟩ := readMembers_bracketed (readsMembers_put h [] hd) outer rest
  exact ⟨cs, hcs, by simp [readMembers, hread, Except.map]⟩

/-! ## Values -/

theorem spells_written {depth : Nat} {v : Json} (hv : Nested depth v)
    (hn : v.hasOnlyIntegers = true) (layout : Layout) (outer : Nat) :
    Spells (readValue depth) (written layout outer v) v := by
  induction hv generalizing outer with
  | null => exact spells_null _
  | bool b =>
    cases b with
    | true => exact spells_true _
    | false => exact spells_false _
  | @num depth n fits =>
    cases n with
    | int n => exact spells_int depth fits
    | float bits => cases hn
  | str s => exact spells_str _ s
  | arr below ih =>
    have hitems := itemsHaveOnlyIntegers_iff.1 hn
    exact spells_arr fun v hm => ih v hm (hitems v hm) (outer + 1)
  | obj distinct below ih =>
    have hmembers := Members.hasOnlyIntegers_iff.1 hn
    exact spells_obj distinct fun m hm => ih m hm (hmembers m hm) (outer + 1)

/-- A value that was written, on a line of its own, reads back. -/
theorem ofText_text {v : Json} (hv : Nested maxDepth v) (hn : v.hasOnlyIntegers = true)
    (layout : Layout) : ofText (v.text layout ++ "\n") = .ok v := by
  have hends : EndsNumber ['\n'] := endsNumber_cons rfl (by decide) rfl []
  have hread := (spells_written hv hn layout 0).reads_here hends
  have hlist : (v.text layout ++ "\n").toList = written layout 0 v ++ ['\n'] := by
    simp [text]
  refine mapError_eq_ok.2 (bind_eq_ok.2 ⟨(v, ['\n']), by rw [hlist, hread], ?_⟩)
  simp [readEnd, skipSpace, isSpace, bind, Except.bind]

end Json

/-- The text of a catalog has the entries of the catalog. -/
theorem Catalog.rootOfText_text {c : Catalog} (hc : Json.Nested Json.maxDepth (.obj c.root))
    (hn : c.root.hasOnlyIntegers = true) : rootOfText c.text = .ok c.root := by
  rw [rootOfText, text, Json.ofText_text hc hn]

end CatalogAudit
