/-
  CatalogAudit.Proofs.Json.Skipping — a value that nobody asked for is read over.

  The text of a value is one that the grammar of JSON derives (`IsValueText`): with any digits,
  escapes and blanks, and with containers inside of containers to any depth. It is read over to
  its end, whatever comes after it (`skipValue_of_isValueText`).

  The reader holds the brackets that are open. A value takes it at most two steps for each
  character, and leaves it where it reads on in the innermost bracket around the value
  (`SkippedIn`, `resume`).
-/

import CatalogAudit.Proofs.Json.Spelling

namespace CatalogAudit.Json

open Text

variable {text key whole fraction exponent ds rest : List Char}

/-! ## Strings -/

def IsHexDigit (c : Char) : Prop :=
  ('0' ≤ c ∧ c ≤ '9') ∨ ('a' ≤ c ∧ c ≤ 'f') ∨ ('A' ≤ c ∧ c ≤ 'F')

/-- What may stand between quotes. The units of surrogate escapes need not pair up. -/
inductive IsQuotable : List Char → Prop
  | nil : IsQuotable []
  | plain {c : Char} {cs : List Char} (quote : c ≠ '"') (backslash : c ≠ '\\')
      (noControl : 0x20 ≤ c.toNat) (more : IsQuotable cs) : IsQuotable (c :: cs)
  | escape {c : Char} {cs : List Char} (short : c ∈ ['"', '\\', '/', 'b', 'f', 'n', 'r', 't'])
      (more : IsQuotable cs) : IsQuotable ('\\' :: c :: cs)
  | unit {a b c d : Char} {cs : List Char} (hex : ∀ x ∈ [a, b, c, d], IsHexDigit x)
      (more : IsQuotable cs) : IsQuotable ('\\' :: 'u' :: a :: b :: c :: d :: cs)

def IsStringText (text : List Char) : Prop :=
  ∃ cs, IsQuotable cs ∧ text = '"' :: (cs ++ ['"'])

theorem isSome_hexValue? {c : Char} (h : IsHexDigit c) : (hexValue? c).isSome = true := by
  unfold hexValue?
  rcases h with h | h | h
  · simp [h]
  · simp only [h, Bool.and_self, decide_true, if_true]
    split <;> rfl
  · simp only [h, Bool.and_self, decide_true, if_true]
    repeat' split
    all_goals rfl

theorem skipEscape_unit {a b c d : Char} (h : ∀ x ∈ [a, b, c, d], IsHexDigit x)
    (cs : List Char) : skipEscape ('u' :: a :: b :: c :: d :: cs) = .ok ((), cs) := by
  have hvalue : ∀ x ∈ [a, b, c, d], ∃ n, hexValue? x = some n := fun x hx =>
    Option.isSome_iff_exists.1 (isSome_hexValue? (h x hx))
  obtain ⟨_, ha⟩ := hvalue a (by simp)
  obtain ⟨_, hb⟩ := hvalue b (by simp)
  obtain ⟨_, hc⟩ := hvalue c (by simp)
  obtain ⟨_, hd⟩ := hvalue d (by simp)
  simp [skipEscape, readUnit, ha, hb, hc, hd, Except.map]

theorem skipEscape_short {c : Char} (h : c ∈ ['"', '\\', '/', 'b', 'f', 'n', 'r', 't'])
    (cs : List Char) : skipEscape (c :: cs) = .ok ((), cs) := by
  simp only [List.mem_cons, List.not_mem_nil, or_false] at h
  rcases h with rfl | rfl | rfl | rfl | rfl | rfl | rfl | rfl <;> rfl

theorem skipStringWithin_of_isQuotable {cs : List Char} (h : IsQuotable cs) {bound : List Char}
    (hbound : cs.length < bound.length) (rest : List Char) :
    skipStringWithin bound (cs ++ '"' :: rest) = .ok ((), rest) := by
  induction h generalizing bound with
  | nil =>
    obtain ⟨b, bound, rfl⟩ := List.exists_cons_of_length_pos hbound
    simp [skipStringWithin]
  | plain quote backslash noControl more ih =>
    obtain ⟨b, bound, rfl⟩ := List.exists_cons_of_length_pos (Nat.zero_lt_of_lt hbound)
    have hmore := ih (Nat.lt_of_succ_lt_succ hbound)
    simp [skipStringWithin, quote, backslash, Nat.not_lt.2 noControl, hmore]
  | escape short more ih =>
    obtain ⟨b, bound, rfl⟩ := List.exists_cons_of_length_pos (Nat.zero_lt_of_lt hbound)
    simp only [List.length_cons] at hbound
    have hmore := @ih bound (by omega)
    simp [skipStringWithin, skipEscape_short short, hmore, bind, Except.bind]
  | unit hex more ih =>
    obtain ⟨b, bound, rfl⟩ := List.exists_cons_of_length_pos (Nat.zero_lt_of_lt hbound)
    simp only [List.length_cons] at hbound
    have hmore := @ih bound (by omega)
    simp [skipStringWithin, skipEscape_unit hex, hmore, bind, Except.bind]

theorem skipString_of_isQuotable {cs : List Char} (h : IsQuotable cs) (rest : List Char) :
    skipString (cs ++ '"' :: rest) = .ok ((), rest) :=
  skipStringWithin_of_isQuotable h (by simp) rest

/-! ## Numbers -/

def IsDigits (ds : List Char) : Prop := ds ≠ [] ∧ ∀ d ∈ ds, d.isDigit = true

/-- Digits of which none comes after a leading zero. -/
def IsWhole (whole : List Char) : Prop :=
  IsDigits whole ∧ (whole.head? = some '0' → whole = ['0'])

def IsFraction (fraction : List Char) : Prop :=
  fraction = [] ∨ ∃ ds, IsDigits ds ∧ fraction = '.' :: ds

def IsExponent (exponent : List Char) : Prop :=
  exponent = [] ∨ ∃ mark ∈ ['e', 'E'], ∃ sign ∈ [[], ['+'], ['-']], ∃ ds, IsDigits ds ∧
    exponent = mark :: (sign ++ ds)

def IsNumberText (text : List Char) : Prop :=
  ∃ sign whole fraction exponent, (sign = [] ∨ sign = ['-']) ∧ IsWhole whole ∧
    IsFraction fraction ∧ IsExponent exponent ∧ text = sign ++ (whole ++ (fraction ++ exponent))

theorem IsDigits.exists_cons (h : IsDigits ds) :
    ∃ c cs, ds = c :: cs ∧ c.isDigit = true ∧ ∀ d ∈ cs, d.isDigit = true := by
  obtain ⟨hne, hds⟩ := h
  obtain ⟨c, cs, rfl⟩ := List.exists_cons_of_ne_nil hne
  exact ⟨c, cs, rfl, List.forall_mem_cons.1 hds⟩

theorem ne_of_isDigit {c d : Char} (hc : c.isDigit = true) (hd : d.isDigit = false) : c ≠ d := by
  rintro rfl
  rw [hc] at hd
  cases hd

theorem skipExponent_append {sign : List Char} (hsign : sign ∈ [[], ['+'], ['-']])
    (hds : IsDigits ds) (hrest : EndsNumber rest) :
    skipExponent (sign ++ (ds ++ rest)) = .ok ((), rest) := by
  obtain ⟨c, cs, rfl, hc, hcs⟩ := hds.exists_cons
  have hsplit := splitDigits_append hcs fun d hd => (hrest d hd).1
  rw [List.cons_append]
  have hread : ∃ down,
      readExponentSign (sign ++ c :: (cs ++ rest)) = (down, c :: (cs ++ rest)) := by
    simp only [List.mem_cons, List.not_mem_nil, or_false] at hsign
    rcases hsign with rfl | rfl | rfl
    · refine ⟨false, ?_⟩
      rw [List.nil_append, readExponentSign]
      · exact fun _ e => absurd (List.cons.inj e).1 (ne_of_isDigit hc rfl)
      · exact fun _ e => absurd (List.cons.inj e).1 (ne_of_isDigit hc rfl)
    · exact ⟨false, rfl⟩
    · exact ⟨true, rfl⟩
  obtain ⟨down, hread⟩ := hread
  simp [skipExponent, hread, hc, hsplit]

/-- What follows the whole digits and, perhaps, the fraction. -/
theorem head?_exponent (h : IsExponent exponent) (hrest : EndsNumber rest) {c : Char}
    (hc : (exponent ++ rest).head? = some c) : c.isDigit = false ∧ c ≠ '.' := by
  rcases h with rfl | ⟨mark, hmark, sign, -, ds, -, rfl⟩
  · exact ⟨(hrest c hc).1, (hrest c hc).2.1⟩
  · cases hc
    simp only [List.mem_cons, List.not_mem_nil, or_false] at hmark
    rcases hmark with rfl | rfl <;> exact ⟨rfl, by decide⟩

theorem skipFraction_append (hds : IsDigits ds) (hexponent : IsExponent exponent)
    (hrest : EndsNumber rest) :
    skipFraction (ds ++ (exponent ++ rest)) = .ok ((), rest) := by
  have hsplit := splitDigits_append hds.2 fun d hd => (head?_exponent hexponent hrest hd).1
  have hempty : ds.isEmpty = false := by simpa using hds.1
  simp only [skipFraction, hsplit, hempty, Bool.false_eq_true, if_false]
  rcases hexponent with rfl | ⟨mark, hmark, sign, hsign, more, hmore, rfl⟩
  · rw [List.nil_append]
    cases rest with
    | nil => rfl
    | cons c cs => simp [(hrest c rfl).2.2]
  · have hmark' : isExponentMark mark = true := by
      simp only [List.mem_cons, List.not_mem_nil, or_false] at hmark
      rcases hmark with rfl | rfl <;> rfl
    simp [hmark', skipExponent_append hsign hmore hrest]

theorem skipAfterWhole_append (hfraction : IsFraction fraction) (hexponent : IsExponent exponent)
    (hrest : EndsNumber rest) :
    skipAfterWhole (fraction ++ (exponent ++ rest)) = .ok ((), rest) := by
  rcases hfraction with rfl | ⟨ds, hds, rfl⟩
  · rw [List.nil_append]
    rcases hexponent with rfl | ⟨mark, hmark, sign, hsign, more, hmore, rfl⟩
    · rw [List.nil_append]
      cases rest with
      | nil => rfl
      | cons c cs => simp [skipAfterWhole, (hrest c rfl).2.1, (hrest c rfl).2.2]
    · have hmark' : mark ≠ '.' ∧ isExponentMark mark = true := by
        simp only [List.mem_cons, List.not_mem_nil, or_false] at hmark
        rcases hmark with rfl | rfl <;> exact ⟨by decide, rfl⟩
      simp [skipAfterWhole, hmark', skipExponent_append hsign hmore hrest]
  · simp [skipAfterWhole, skipFraction_append hds hexponent hrest]

theorem head?_fraction (hfraction : IsFraction fraction) (hexponent : IsExponent exponent)
    (hrest : EndsNumber rest) {c : Char} (hc : (fraction ++ (exponent ++ rest)).head? = some c) :
    c.isDigit = false := by
  rcases hfraction with rfl | ⟨ds, -, rfl⟩
  · exact (head?_exponent hexponent hrest hc).1
  · cases hc
    rfl

theorem skipNumber_append (hwhole : IsWhole whole) (hfraction : IsFraction fraction)
    (hexponent : IsExponent exponent) (hrest : EndsNumber rest) :
    skipNumber (whole ++ (fraction ++ (exponent ++ rest))) = .ok ((), rest) := by
  have htail := skipAfterWhole_append hfraction hexponent hrest
  have hend := fun c => head?_fraction (c := c) hfraction hexponent hrest
  obtain ⟨hdigits, hzero⟩ := hwhole
  obtain ⟨c, cs, rfl, hc, hcs⟩ := hdigits.exists_cons
  by_cases h : c = '0'
  · subst h
    obtain ⟨-, rfl⟩ := List.cons.inj (hzero rfl)
    have hdigit : (fraction ++ (exponent ++ rest)).head?.any Char.isDigit = false := by
      rw [Option.any_eq_false]
      exact fun d hd => by simp [hend d hd]
    simp only [List.cons_append, List.nil_append, skipNumber, if_true, hdigit,
      Bool.false_eq_true, if_false]
    exact htail
  · rw [List.cons_append, skipNumber, if_neg h, if_pos hc, splitDigits_append hcs hend]
    exact htail

/-! ## Values -/

def Bracket.opening : Bracket → Char
  | .list => '['
  | .object => '\x7b'

/-- What stands in a container between two commas: a value, with what leads to it and blanks
after it. -/
structure Item where
  lead : List Char
  value : List Char
  after : List Char

def Item.spelled (i : Item) : List Char := i.lead ++ (i.value ++ i.after)

/-- Blanks, and in an object a key with its colon among them. -/
def IsLead : Bracket → List Char → Prop
  | .list, lead => IsBlank lead
  | .object, lead => ∃ before key gap after, IsBlank before ∧ IsStringText key ∧ IsBlank gap ∧
      IsBlank after ∧ lead = before ++ (key ++ (gap ++ ':' :: after))

/-- The text of a value. -/
inductive IsValueText : List Char → Prop
  | word {text : List Char}
      (known : text ∈ [['n', 'u', 'l', 'l'], ['t', 'r', 'u', 'e'], ['f', 'a', 'l', 's', 'e']]) :
      IsValueText text
  | number {text : List Char} (number : IsNumberText text) : IsValueText text
  | string {text : List Char} (string : IsStringText text) : IsValueText text
  | empty (bracket : Bracket) {blank : List Char} (blanks : IsBlank blank) :
      IsValueText (bracket.opening :: (blank ++ [bracket.closing]))
  | container (bracket : Bracket) {items : List Item} (filled : items ≠ [])
      (leads : ∀ i ∈ items, IsLead bracket i.lead) (blanks : ∀ i ∈ items, IsBlank i.after)
      (values : ∀ i ∈ items, IsValueText i.value) :
      IsValueText (bracket.opening :: (join [','] (items.map Item.spelled) ++ [bracket.closing]))

theorem IsNumberText.starts (h : IsNumberText text) :
    ∃ c cs, text = c :: cs ∧ (c = '-' ∨ c.isDigit = true) := by
  obtain ⟨sign, whole, fraction, exponent, rfl | rfl, hwhole, -, -, rfl⟩ := h
  · obtain ⟨c, cs, rfl, hc, -⟩ := hwhole.1.exists_cons
    exact ⟨c, _, rfl, .inr hc⟩
  · exact ⟨'-', _, rfl, .inl rfl⟩

theorem IsValueText.starts (h : IsValueText text) :
    ∃ c cs, text = c :: cs ∧ isSpace c = false ∧ c ≠ ']' := by
  cases h with
  | word known =>
    simp only [List.mem_cons, List.not_mem_nil, or_false] at known
    rcases known with rfl | rfl | rfl <;> exact ⟨_, _, rfl, rfl, by decide⟩
  | number number =>
    obtain ⟨c, cs, rfl, rfl | hc⟩ := number.starts
    · exact ⟨_, cs, rfl, rfl, by decide⟩
    · refine ⟨c, cs, rfl, ?_, ne_of_isDigit hc rfl⟩
      simp [isSpace, ne_of_isDigit hc]
  | string string =>
    obtain ⟨cs, -, rfl⟩ := string
    exact ⟨_, _, rfl, rfl, by decide⟩
  | empty bracket blanks => cases bracket <;> exact ⟨_, _, rfl, rfl, by decide⟩
  | container bracket => cases bracket <;> exact ⟨_, _, rfl, rfl, by decide⟩

/-! ## Steps -/

variable {bracket : Bracket} {opened : List Bracket} {steps : Nat} {blank : List Char}

/-- Where the reader goes on after a value: in the innermost bracket that is open. -/
def resume (steps : Nat) : (opened : List Bracket) → Step Unit
  | [], cs => .ok ((), cs)
  | bracket :: opened, cs => skipItemsWithin steps true bracket opened cs

/-- A text that is read over in `k` steps, whatever is open around it and comes after it. -/
def SkippedIn (k : Nat) (text : List Char) : Prop :=
  ∀ (steps : Nat) (opened : List Bracket) (rest : List Char), EndsNumber rest →
    skipValueWithin (steps + k) opened (text ++ rest) = resume steps opened rest

theorem skipValueWithin_blank (h : IsBlank blank) (cs : List Char) :
    skipValueWithin steps opened (blank ++ cs) = skipValueWithin steps opened cs := by
  cases steps with
  | zero => rfl
  | succ steps => rw [skipValueWithin, skipValueWithin, skipSpace_blank h]

theorem skipItemsWithin_blank {comma : Bool} (h : IsBlank blank) (cs : List Char) :
    skipItemsWithin steps comma bracket opened (blank ++ cs) =
      skipItemsWithin steps comma bracket opened cs := by
  cases steps with
  | zero => rfl
  | succ steps => rw [skipItemsWithin, skipItemsWithin, skipSpace_blank h]

theorem skippedIn_scalar {c : Char} {cs : List Char} (hspace : isSpace c = false)
    (harr : c ≠ '[') (hobj : c ≠ '\x7b')
    (h : ∀ rest, EndsNumber rest → skipScalar c (cs ++ rest) = .ok ((), rest)) :
    SkippedIn 1 (c :: cs) := by
  intro steps opened rest hrest
  rw [List.cons_append, skipValueWithin, skipSpace_cons hspace]
  simp only [harr, hobj, if_false, h rest hrest, bind, Except.bind]
  cases opened <;> rfl

theorem skippedIn_number (h : IsNumberText text) : SkippedIn 1 text := by
  obtain ⟨sign, whole, fraction, exponent, hsign, hwhole, hfraction, hexponent, rfl⟩ := h
  have hskip := fun rest (hrest : EndsNumber rest) =>
    skipNumber_append hwhole hfraction hexponent hrest
  rcases hsign with rfl | rfl
  · obtain ⟨c, cs, rfl, hc, -⟩ := hwhole.1.exists_cons
    have hne := fun d hd => ne_of_isDigit (d := d) hc hd
    rw [List.nil_append, List.cons_append]
    refine skippedIn_scalar (by simp [isSpace, hne]) (hne _ rfl) (hne _ rfl) fun rest hrest => ?_
    have hread := hskip rest hrest
    rw [List.cons_append] at hread
    simp [skipScalar, hne, hc, hread]
  · refine skippedIn_scalar rfl (by decide) (by decide) fun rest hrest => ?_
    simp [skipScalar, hskip rest hrest]

theorem skippedIn_string (h : IsStringText text) : SkippedIn 1 text := by
  obtain ⟨cs, hcs, rfl⟩ := h
  refine skippedIn_scalar rfl (by decide) (by decide) fun rest _ => ?_
  have hskip := skipString_of_isQuotable hcs rest
  simp [skipScalar, hskip]

/-! ## Containers -/

theorem closing_ne_comma (bracket : Bracket) : bracket.closing ≠ ',' := by
  cases bracket <;> decide

theorem isSpace_closing (bracket : Bracket) : isSpace bracket.closing = false := by
  cases bracket <;> rfl

theorem endsNumber_closing (bracket : Bracket) (rest : List Char) :
    EndsNumber (bracket.closing :: rest) := by
  cases bracket <;> exact endsNumber_cons rfl (by decide) rfl rest

theorem skipValueWithin_opening (bracket : Bracket) (cs : List Char) :
    skipValueWithin (steps + 1) opened (bracket.opening :: cs) =
      skipItemsWithin steps false bracket opened cs := by
  cases bracket <;> (rw [skipValueWithin, Bracket.opening, skipSpace_cons rfl]; rfl)

theorem skipItemsWithin_closing (comma : Bool) (bracket : Bracket) (rest : List Char) :
    skipItemsWithin (steps + 1) comma bracket opened (bracket.closing :: rest) =
      resume steps opened rest := by
  rw [skipItemsWithin, skipSpace_cons (isSpace_closing bracket)]
  simp only [closing_ne_comma, decide_false, Bool.and_false, Bool.false_eq_true, if_false, if_true]
  cases opened <;> rfl

theorem skipKey_object {before gap : List Char} (hbefore : IsBlank before)
    (hkey : IsStringText key) (hgap : IsBlank gap) (cs : List Char) :
    skipKey .object (before ++ (key ++ (gap ++ ':' :: cs))) = .ok ((), cs) := by
  obtain ⟨quoted, hquoted, rfl⟩ := hkey
  have hstring := skipString_of_isQuotable hquoted (gap ++ ':' :: cs)
  have hcolon : readColon (gap ++ ':' :: cs) = .ok ((), cs) := by
    rw [readColon, skipSpace_blank hgap, skipSpace_cons rfl]
    rfl
  simp [skipKey, skipSpace_blank hbefore, skipSpace_cons, isSpace, hstring, hcolon, bind,
    Except.bind]

/-- What leads to the first value is read over. -/
theorem skipItemsWithin_first {i : Item} (hlead : IsLead bracket i.lead)
    (hvalue : IsValueText i.value) (rest : List Char) :
    skipItemsWithin (steps + 1) false bracket opened (i.lead ++ (i.value ++ rest)) =
      skipValueWithin steps (bracket :: opened) (i.value ++ rest) := by
  cases bracket with
  | list =>
    obtain ⟨c, cs, hstarts, hspace, hclose⟩ := hvalue.starts
    rw [skipItemsWithin, skipSpace_blank hlead, hstarts, List.cons_append, skipSpace_cons hspace]
    simp [Bracket.closing, hclose, skipKey, bind, Except.bind]
  | object =>
    obtain ⟨before, key, gap, after, hbefore, hkey, hgap, hafter, heq⟩ := hlead
    have hskip := skipKey_object isBlank_nil hkey hgap (after ++ (i.value ++ rest))
    obtain ⟨quoted, -, rfl⟩ := hkey
    rw [heq, List.append_assoc, skipItemsWithin, skipSpace_blank hbefore]
    simp only [List.nil_append, List.cons_append, List.append_assoc] at hskip ⊢
    rw [skipSpace_cons rfl]
    simp [Bracket.closing, hskip, skipValueWithin_blank hafter, bind, Except.bind]

/-- So is what leads from a comma to the next value. -/
theorem skipItemsWithin_comma {i : Item} (hlead : IsLead bracket i.lead) (rest : List Char) :
    skipItemsWithin (steps + 1) true bracket opened (',' :: (i.lead ++ (i.value ++ rest))) =
      skipValueWithin steps (bracket :: opened) (i.value ++ rest) := by
  rw [skipItemsWithin, skipSpace_cons rfl]
  simp only [Bool.true_and, decide_true, if_true]
  cases bracket with
  | list => simp [skipKey, skipValueWithin_blank hlead, bind, Except.bind]
  | object =>
    obtain ⟨before, key, gap, after, hbefore, hkey, hgap, hafter, heq⟩ := hlead
    have hskip := skipKey_object hbefore hkey hgap (after ++ (i.value ++ rest))
    rw [heq]
    simp only [List.append_assoc, List.cons_append]
    simp [hskip, skipValueWithin_blank hafter, bind, Except.bind]

/-- The items after the first one, each after its comma. -/
def tailItems (items : List Item) : List Char := items.flatMap fun i => ',' :: i.spelled

theorem endsNumber_tailItems (items : List Item) (bracket : Bracket) (rest : List Char) :
    EndsNumber (tailItems items ++ bracket.closing :: rest) := by
  cases items with
  | nil => exact endsNumber_closing bracket rest
  | cons i items => exact endsNumber_cons rfl (by decide) rfl _

/-- After a value the reader goes on with what follows the blanks after it. -/
theorem SkippedIn.then_items {k : Nat} {i : Item} (h : SkippedIn k i.value)
    (hblank : IsBlank i.after) (items : List Item) (rest : List Char) :
    skipValueWithin (steps + k) (bracket :: opened)
        (i.value ++ (i.after ++ (tailItems items ++ bracket.closing :: rest))) =
      skipItemsWithin steps true bracket opened (tailItems items ++ bracket.closing :: rest) := by
  have hends := endsNumber_blank hblank (endsNumber_tailItems items bracket rest)
  rw [h steps (bracket :: opened) _ hends, resume, skipItemsWithin_blank hblank]

theorem exists_skip_tailItems {items : List Item} (hleads : ∀ i ∈ items, IsLead bracket i.lead)
    (hblanks : ∀ i ∈ items, IsBlank i.after)
    (hvalues : ∀ i ∈ items, ∃ k ≤ 2 * i.value.length, SkippedIn k i.value) :
    ∃ k ≤ 2 * (tailItems items).length, ∀ steps opened rest,
      skipItemsWithin (steps + k + 1) true bracket opened
        (tailItems items ++ bracket.closing :: rest) = resume steps opened rest := by
  induction items with
  | nil => exact ⟨0, Nat.zero_le _, fun _ _ rest => skipItemsWithin_closing true bracket rest⟩
  | cons i items ih =>
    obtain ⟨hlead, hleads⟩ := List.forall_mem_cons.1 hleads
    obtain ⟨hblank, hblanks⟩ := List.forall_mem_cons.1 hblanks
    obtain ⟨⟨k, hk, hvalue⟩, hvalues⟩ := List.forall_mem_cons.1 hvalues
    obtain ⟨more, hmore, hitems⟩ := ih hleads hblanks hvalues
    refine ⟨more + 1 + k, ?_, fun steps opened rest => ?_⟩
    · simp only [tailItems, List.flatMap_cons, List.length_append, List.length_cons,
        Item.spelled] at hmore ⊢
      omega
    · have htail : tailItems (i :: items) ++ bracket.closing :: rest = ',' :: (i.lead ++
          (i.value ++ (i.after ++ (tailItems items ++ bracket.closing :: rest)))) := by
        simp [tailItems, Item.spelled]
      rw [htail, skipItemsWithin_comma hlead, show steps + (more + 1 + k) = steps + more + 1 + k by
        omega, hvalue.then_items hblank, hitems]

theorem exists_skippedIn_container {items : List Item} (hfilled : items ≠ [])
    (hleads : ∀ i ∈ items, IsLead bracket i.lead) (hblanks : ∀ i ∈ items, IsBlank i.after)
    (htexts : ∀ i ∈ items, IsValueText i.value)
    (hvalues : ∀ i ∈ items, ∃ k ≤ 2 * i.value.length, SkippedIn k i.value) :
    ∃ k ≤ 2 * (bracket.opening :: (join [','] (items.map Item.spelled) ++
        [bracket.closing])).length,
      SkippedIn k
        (bracket.opening :: (join [','] (items.map Item.spelled) ++ [bracket.closing])) := by
  obtain ⟨i, items, rfl⟩ := List.exists_cons_of_ne_nil hfilled
  obtain ⟨hlead, hleads⟩ := List.forall_mem_cons.1 hleads
  obtain ⟨hblank, hblanks⟩ := List.forall_mem_cons.1 hblanks
  obtain ⟨⟨k, hk, hvalue⟩, hvalues⟩ := List.forall_mem_cons.1 hvalues
  obtain ⟨more, hmore, hitems⟩ := exists_skip_tailItems hleads hblanks hvalues
  have hjoin : join [','] ((i :: items).map Item.spelled) =
      i.lead ++ (i.value ++ (i.after ++ tailItems items)) := by
    rw [List.map_cons, join_cons, List.flatMap_map]
    simp [tailItems, Item.spelled]
  rw [hjoin]
  refine ⟨more + k + 3, ?_, fun steps opened rest hrest => ?_⟩
  · simp only [List.length_cons, List.length_append, List.length_nil]
    omega
  · rw [show steps + (more + k + 3) = steps + more + 1 + k + 1 + 1 by omega, List.cons_append,
      skipValueWithin_opening]
    simp only [List.append_assoc, List.singleton_append]
    rw [skipItemsWithin_first hlead (htexts i List.mem_cons_self), hvalue.then_items hblank,
      hitems]

theorem IsValueText.exists_skippedIn (h : IsValueText text) :
    ∃ k ≤ 2 * text.length, SkippedIn k text := by
  have hscalar : ∀ {text}, IsValueText text → SkippedIn 1 text →
      ∃ k ≤ 2 * text.length, SkippedIn k text := by
    intro text htext hskip
    obtain ⟨c, cs, rfl, -⟩ := htext.starts
    refine ⟨1, ?_, hskip⟩
    rw [List.length_cons]
    omega
  induction h with
  | word known =>
    refine hscalar (.word known) ?_
    simp only [List.mem_cons, List.not_mem_nil, or_false] at known
    rcases known with rfl | rfl | rfl <;>
      exact skippedIn_scalar rfl (by decide) (by decide) fun _ _ => rfl
  | number number => exact hscalar (.number number) (skippedIn_number number)
  | string string => exact hscalar (.string string) (skippedIn_string string)
  | @empty bracket blank blanks =>
    refine ⟨2, ?_, fun steps opened rest _ => ?_⟩
    · simp only [List.length_cons, List.length_append, List.length_nil]
      omega
    · rw [List.cons_append, skipValueWithin_opening, List.append_assoc,
        skipItemsWithin_blank blanks, List.singleton_append, skipItemsWithin_closing]
  | container bracket filled leads blanks values ih =>
    exact exists_skippedIn_container filled leads blanks values ih

/-- The text of a value is read over, and nothing after it. -/
theorem skipValue_of_isValueText (h : IsValueText text) (hblank : IsBlank blank)
    (hrest : EndsNumber rest) : skipValue (blank ++ (text ++ rest)) = .ok ((), rest) := by
  obtain ⟨k, hk, hskip⟩ := h.exists_skippedIn
  have hsteps : 2 * (blank ++ (text ++ rest)).length + 2 =
      2 * (blank.length + text.length + rest.length) + 2 - k + k := by
    simp only [List.length_append]
    omega
  rw [skipValue, hsteps, skipValueWithin_blank hblank, hskip _ [] rest hrest]
  rfl

end CatalogAudit.Json
