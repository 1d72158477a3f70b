/-
  CatalogAudit.Proofs.Scan.Receivers — which identifier the namespace of a call is bound to.

  A declaration is `const`, an identifier and an equals sign, and may stand anywhere in a line
  (`DeclaresAfter`). The identifier that receives a namespace is taken from the lines before the
  call, the nearest one first: each is searched from its start, so that the first declaration in
  it counts (`declared?_eq_some_iff`).

  The line is the nearest one in reach with a declaration (`receiver?_eq_some_iff`). In it the
  first declaration is the last one too, and so the nearest to the call, when the line declares
  nothing else (`receiver_is_declared_first`); in a line that declares more, the identifier
  bound may be another than the one that the call is assigned to
  (`receiver_may_be_declared_earlier`).
-/

import CatalogAudit.Proofs.Scan.Calls
import CatalogAudit.Proofs.Text.Splitting
import CatalogAudit.Proofs.Usage.Bindings
import CatalogAudit.Scan.Binding

namespace CatalogAudit.Shape

open Text Text.Pattern

/-! ## Declarations -/

/-- A text starts with a declaration: `const`, a name and an equals sign, with blanks between
them. -/
def StartsDeclaration (name text : List Char) : Prop :=
  ∃ gap more rest, text = "const".toList ++ (gap ++ (name ++ (more ++ '=' :: rest))) ∧
    (gap ≠ [] ∧ ∀ c ∈ gap, isBlank c = true) ∧ (name ≠ [] ∧ ∀ c ∈ name, isWord c = true) ∧
    ∀ c ∈ more, isBlank c = true

section
variable {name text : List Char}

theorem startsDeclaration_spaced (hne : name ≠ []) (hname : ∀ c ∈ name, isWord c = true)
    (rest : List Char) :
    StartsDeclaration name ("const ".toList ++ (name ++ (" =".toList ++ rest))) := by
  have hconst : "const ".toList = "const".toList ++ [' '] := by decide
  have hequals : " =".toList = [' ', '='] := by decide
  have hblanks : ∀ c ∈ [' '], isBlank c = true := List.all_eq_true.1 (by decide)
  refine ⟨[' '], [' '], rest, ?_, ⟨by simp, hblanks⟩, ⟨hne, hname⟩, hblanks⟩
  rw [hconst, hequals]
  simp

theorem match?_constant (h : StartsDeclaration name text) (before : List Char) :
    ∃ stop, constant.match? ⟨before, text⟩ = some ([name], stop) := by
  obtain ⟨gap, more, rest, rfl, ⟨hgapNe, hgap⟩, ⟨hne, hname⟩, hmore⟩ := h
  obtain ⟨blank, gap, rfl⟩ := List.exists_cons_of_ne_nil hgapNe
  obtain ⟨hblank, hgap⟩ := List.forall_mem_cons.1 hgap
  -- no character is both white space and part of a word, so each run ends where the next starts
  have hfirst : (name ++ (more ++ '=' :: rest)).head?.any isBlank = false := by
    obtain ⟨c, name, rfl⟩ := List.exists_cons_of_ne_nil hne
    refine any_head?_cons ?_ _
    by_contra hc
    rw [Bool.not_eq_false] at hc
    exact absurd (isWord_of_isBlank hc) (by simp [hname c List.mem_cons_self])
  have hends : (more ++ '=' :: rest).head?.any isWord = false := by
    cases more with
    | nil => exact any_head?_cons (by decide) rest
    | cons c more => exact any_head?_cons (isWord_of_isBlank (hmore c List.mem_cons_self)) _
  have hequals : ('=' :: rest).head?.any isBlank = false := any_head?_cons (by decide) rest
  simp only [match?, constant, all, List.foldr_cons, List.foldr_nil, blanks, matchThen_seq,
    matchThen_text, List.cons_append, matchThen_one hblank, matchThen_span hgap hfirst,
    matchThen_field hne hname hends, matchThen_span hmore hequals, matchThen_char,
    matchThen_nothing]
  exact ⟨_, rfl⟩

theorem startsDeclaration_of_matches {c stop : Cursor} {fields : List (List Char)}
    (h : Matches constant c fields stop) :
    ∃ name, fields = [name] ∧ StartsDeclaration name c.after := by
  obtain ⟨_, _, _, constant, fromBlank, rfl⟩ := matches_seq.1 h
  obtain ⟨_, _, _, blank, fromGap, rfl⟩ := matches_seq.1 fromBlank
  obtain ⟨_, _, _, gap, fromWord, rfl⟩ := matches_seq.1 fromGap
  obtain ⟨_, _, _, field, fromMore, rfl⟩ := matches_seq.1 fromWord
  obtain ⟨_, _, _, more, fromSign, rfl⟩ := matches_seq.1 fromMore
  obtain ⟨_, _, _, sign, finish, rfl⟩ := matches_seq.1 fromSign
  cases finish
  obtain ⟨hconst, rfl⟩ := takes_text constant
  obtain ⟨x, hx, hblank, rfl⟩ := takes_one blank
  obtain ⟨xs, hxs, hgap, rfl⟩ := takes_span gap
  obtain ⟨name, hne, hname, hfield, rfl⟩ := takes_field field
  obtain ⟨ys, hys, hmore, rfl⟩ := takes_span more
  obtain ⟨hsign, rfl⟩ := takes_text sign
  refine ⟨name, rfl, x :: xs, ys, stop.after, ?_, ⟨List.cons_ne_nil x xs, ?_⟩, ⟨hne, hname⟩, hys⟩
  · rw [hconst, hblank, hgap, hfield, hmore, hsign]
    rfl
  · exact List.forall_mem_cons.2 ⟨hx, hxs⟩

end

end CatalogAudit.Shape

namespace CatalogAudit.Scan

open Text Text.Pattern Shape Source

/-! ## The declarations of a line -/

/-- In a line, after `front`, stands a declaration of an identifier. -/
def DeclaresAfter (line front : List Char) (identifier : String) : Prop :=
  ∃ text, line = front ++ text ∧ StartsDeclaration identifier.toList text

/-- The first declaration in a line. -/
def FirstDeclares (line : List Char) (identifier : String) : Prop :=
  ∃ front, DeclaresAfter line front identifier ∧
    ∀ other name, DeclaresAfter line other name → front.length ≤ other.length

/-- The last declaration in a line, which is the one nearest to its end. -/
def LastDeclares (line : List Char) (identifier : String) : Prop :=
  ∃ front, DeclaresAfter line front identifier ∧
    ∀ other name, DeclaresAfter line other name → other.length ≤ front.length

/-- All declarations in a line are of one identifier. -/
def DeclaresOnly (line : List Char) (identifier : String) : Prop :=
  ∀ front name, DeclaresAfter line front name → name = identifier

section
variable {line : List Char} {identifier : String}

theorem declaresAfter_iff {front : List Char} :
    DeclaresAfter line front identifier ↔
      ∃ text stop, line = front ++ text ∧
        constant.match? ⟨front.reverse, text⟩ = some ([identifier.toList], stop) := by
  constructor
  · rintro ⟨text, hline, h⟩
    obtain ⟨stop, hm⟩ := match?_constant h front.reverse
    exact ⟨text, stop, hline, hm⟩
  · rintro ⟨text, stop, hline, hm⟩
    obtain ⟨name, hfields, h⟩ := startsDeclaration_of_matches (match?_sound hm)
    obtain rfl : identifier.toList = name := (List.cons.inj hfields).1
    exact ⟨text, hline, h⟩

theorem DeclaresAfter.mem_fieldsEverywhere {front : List Char}
    (h : DeclaresAfter line front identifier) :
    [identifier.toList] ∈ constant.fieldsEverywhere line := by
  obtain ⟨text, stop, rfl, hm⟩ := declaresAfter_iff.1 h
  have hplace : ⟨front.reverse, text⟩ ∈ Cursor.places ⟨[], front ++ text⟩ := by
    refine List.mem_of_getElem? (i := front.length) ?_
    simp [Cursor.getElem?_places, Cursor.advance]
  rw [fieldsEverywhere_eq, List.mem_filterMap]
  exact ⟨_, hplace, by rw [hm]; rfl⟩

/-- One declaration at most stands at a place. -/
theorem DeclaresAfter.unique {front other : List Char} {name : String}
    (h : DeclaresAfter line front identifier) (ho : DeclaresAfter line other name)
    (hlength : front.length = other.length) : identifier = name := by
  obtain ⟨text, stop, hline, hm⟩ := declaresAfter_iff.1 h
  obtain ⟨text', stop', hline', hm'⟩ := declaresAfter_iff.1 ho
  obtain ⟨rfl, rfl⟩ := List.append_inj (hline.symm.trans hline') hlength
  rw [hm] at hm'
  simp only [Option.some.injEq, Prod.mk.injEq, List.cons.injEq, String.toList_inj] at hm'
  exact hm'.1.1

theorem FirstDeclares.unique {name : String} (h : FirstDeclares line identifier)
    (ho : FirstDeclares line name) : identifier = name := by
  obtain ⟨front, hat, hfirst⟩ := h
  obtain ⟨other, hother, hleast⟩ := ho
  exact hat.unique hother (Nat.le_antisymm (hfirst other name hother) (hleast front _ hat))

theorem firstDeclares_of_declared? (h : declared? line = some identifier) :
    FirstDeclares line identifier := by
  obtain ⟨m, hm, hfield⟩ := Option.bind_eq_some_iff.1 h
  obtain ⟨front, text, stop, hline, hbefore, hmatch, hnone⟩ := first_of_findFrom?_some hm
  rw [List.append_nil] at hbefore
  rw [hbefore] at hmatch
  obtain ⟨name, hfields, -⟩ := startsDeclaration_of_matches (match?_sound hmatch)
  rw [hfields] at hfield hmatch
  obtain rfl : String.ofList name = identifier := by simpa using hfield
  refine ⟨front, declaresAfter_iff.2 ⟨text, stop, hline, by simpa using hmatch⟩, ?_⟩
  intro other name' ho
  obtain ⟨text', stop', hline', hmatch'⟩ := declaresAfter_iff.1 ho
  by_contra hlt
  have hhere := hnone other text' hline' (Nat.lt_of_not_le hlt)
  rw [List.append_nil, hmatch'] at hhere
  cases hhere

theorem not_declaresAfter_of_declared?_none (h : declared? line = none) (front : List Char)
    (identifier : String) : ¬ DeclaresAfter line front identifier := by
  have hnone : constant.findFrom? [] line = none := by
    by_contra hsome
    obtain ⟨m, hm⟩ := Option.ne_none_iff_exists'.1 hsome
    obtain ⟨_, _, _, -, -, hmatch, -⟩ := first_of_findFrom?_some hm
    obtain ⟨name, hfields, -⟩ := startsDeclaration_of_matches (match?_sound hmatch)
    simp [declared?, find?, hm, hfields] at h
  intro hat
  obtain ⟨text, stop, hline, hmatch⟩ := declaresAfter_iff.1 hat
  have hne : text ≠ [] := by
    rintro rfl
    cases hmatch
  have hhere := match?_of_findFrom?_none hnone front text hline hne
  rw [List.append_nil, hmatch] at hhere
  cases hhere

/-- The first declaration in a line counts. -/
theorem declared?_eq_some_iff :
    declared? line = some identifier ↔ FirstDeclares line identifier := by
  refine ⟨firstDeclares_of_declared?, fun h => ?_⟩
  cases hd : declared? line with
  | some name => rw [(firstDeclares_of_declared? hd).unique h]
  | none =>
    obtain ⟨front, hat, -⟩ := h
    exact absurd hat (not_declaresAfter_of_declared?_none hd front identifier)

theorem declared?_eq_none_iff :
    declared? line = none ↔ ∀ front name, ¬ DeclaresAfter line front name := by
  refine ⟨not_declaresAfter_of_declared?_none, fun h => ?_⟩
  cases hd : declared? line with
  | none => rfl
  | some name =>
    obtain ⟨front, hat, -⟩ := firstDeclares_of_declared? hd
    exact absurd hat (h front name)

end

/-- A line with a declaration has a last one. -/
theorem exists_lastDeclares {line front : List Char} {identifier : String}
    (h : DeclaresAfter line front identifier) :
    ∃ name, LastDeclares line name := by
  by_cases hlast : ∀ other name, DeclaresAfter line other name → other.length ≤ front.length
  · exact ⟨identifier, front, h, hlast⟩
  · push Not at hlast
    obtain ⟨other, name, ho, hlt⟩ := hlast
    have hle : other.length ≤ line.length := by
      obtain ⟨text, rfl, -⟩ := ho
      simp
    exact exists_lastDeclares ho
termination_by line.length - front.length

/-! ## The line of a receiver -/

/-- Of the entries of a list that are kept, the first one with a value. -/
theorem findSome?_filter {α β : Type} (p : α → Bool) (f : α → Option β) (xs : List α) :
    (xs.filter p).findSome? f = xs.findSome? fun x => if p x = true then f x else none := by
  induction xs with
  | nil => rfl
  | cons x xs ih =>
    by_cases hx : p x = true
    · rw [List.filter_cons_of_pos hx, List.findSome?_cons, List.findSome?_cons, if_pos hx, ih]
    · rw [List.filter_cons_of_neg hx, List.findSome?_cons, if_neg hx, ih]

/-- The last lines of a text, nearest to its end first. -/
theorem lastLines_eq (count : Nat) (before : List Char) :
    lastLines count before = (splitOn '\n' before.reverse).reverse.take count := by
  induction count generalizing before with
  | zero => rfl
  | succ count ih =>
    have hline : '\n' ∉ (before.takeWhile (· != '\n')).reverse := by
      intro hm
      have := List.mem_takeWhile_imp (List.mem_reverse.1 hm)
      simp at this
    have hsplit := List.takeWhile_append_dropWhile (p := (· != '\n')) (l := before)
    rw [lastLines]
    split
    · next hrest =>
      rw [hrest, List.append_nil] at hsplit
      rw [hsplit] at hline ⊢
      simp [splitOn_of_not_mem hline]
    · next c rest hrest =>
      obtain rfl : c = '\n' := by
        have := List.head?_dropWhile_not (· != '\n') before
        simpa [hrest] using this
      have hbefore : before.reverse =
          rest.reverse ++ '\n' :: (before.takeWhile (· != '\n')).reverse := by
        conv_lhs => rw [← hsplit, hrest]
        simp
      rw [ih, hbefore, splitOn_append_cons, splitOn_of_not_mem hline]
      simp

theorem mentionsCall_iff {line : List Char} :
    mentionsCall line = true ↔ useTranslations <:+: line ∨ getTranslations <:+: line := by
  rw [mentionsCall, Bool.or_eq_true, occurs_iff, occurs_iff]

/-- The calls that give a namespace. -/
inductive CallKind where
  /-- `getTranslations` -/
  | namespaceCall
  /-- `useTranslations` -/
  | hookCall

namespace CallKind

variable (kind : CallKind)

def shape : CallKind → Text.Pattern
  | .namespaceCall => Shape.namespaceCall
  | .hookCall => Shape.hookCall

def pass : CallKind → Finder
  | .namespaceCall => namespaceCalls
  | .hookCall => hookCalls

def receiver? : CallKind → (before : List Char) → Option String
  | .namespaceCall => Scan.receiver?
  | .hookCall => inlineReceiver?

/-- How many lines are in reach of a call, its own line among them. -/
def reach : CallKind → Nat
  | .namespaceCall => lookbackLines
  | .hookCall => 1

/-- The lines that are left aside. -/
def Skips : CallKind → (line : List Char) → Prop
  | .namespaceCall, line => useTranslations <:+: line ∨ getTranslations <:+: line
  | .hookCall, _ => False

instance (line : List Char) : Decidable (kind.Skips line) :=
  match kind with
  | .namespaceCall => decidable_of_iff _ mentionsCall_iff
  | .hookCall => inferInstanceAs (Decidable False)

/-- A line that an identifier is taken from when it is the nearest one of its kind. -/
def Counts (line : List Char) : Prop :=
  ¬ kind.Skips line ∧ ∃ front name, DeclaresAfter line front name

/-- The line that the identifier for a call is taken from, `front` being the text before the
call: of the lines in reach, the nearest one that counts. -/
def IsReceiverLine (front line : List Char) : Prop :=
  ∃ nearer farther, (splitOn '\n' front).reverse.take kind.reach = nearer ++ line :: farther ∧
    kind.Counts line ∧ ∀ other ∈ nearer, ¬ kind.Counts other

/-- There is one line at most that the identifier for a call is taken from. -/
theorem IsReceiverLine.unique {kind : CallKind} {front line other : List Char}
    (h : kind.IsReceiverLine front line) (ho : kind.IsReceiverLine front other) :
    line = other := by
  obtain ⟨nearer, farther, hlines, hline, hnearer⟩ := h
  obtain ⟨nearer', farther', hlines', hother, hnearer'⟩ := ho
  rcases List.append_eq_append_iff.1 (hlines.symm.trans hlines') with
    ⟨between, rfl, hrest⟩ | ⟨between, rfl, hrest⟩
  · cases between with
    | nil => exact (List.cons.inj hrest).1
    | cons first between =>
      obtain ⟨rfl, -⟩ := List.cons.inj hrest
      exact absurd hline (hnearer' line (by simp))
  · cases between with
    | nil => exact (List.cons.inj hrest).1.symm
    | cons first between =>
      obtain ⟨rfl, -⟩ := List.cons.inj hrest
      exact absurd hother (hnearer other (by simp))

/-- What is taken from a line. -/
def taken? (line : List Char) : Option String :=
  if kind.Skips line then none else declared? line

theorem receiver?_eq (before : List Char) :
    kind.receiver? before = (lastLines kind.reach before).findSome? kind.taken? := by
  cases kind with
  | namespaceCall =>
    have htaken : taken? .namespaceCall =
        fun line => if (!mentionsCall line) = true then declared? line else none := by
      funext line
      have hskips : Skips .namespaceCall line ↔ mentionsCall line = true := mentionsCall_iff.symm
      by_cases h : mentionsCall line = true
      · rw [taken?, if_pos (hskips.2 h), if_neg (by simp [h])]
      · rw [taken?, if_neg (mt hskips.1 h), if_pos (by simpa using h)]
    rw [htaken, ← findSome?_filter]
    rfl
  | hookCall => rfl

variable {kind} {line : List Char}

theorem taken?_eq_some_iff {identifier : String} :
    kind.taken? line = some identifier ↔ ¬ kind.Skips line ∧ FirstDeclares line identifier := by
  rw [taken?, ← declared?_eq_some_iff]
  by_cases h : kind.Skips line
  · simp [h]
  · simp [h]

theorem taken?_eq_none_iff : kind.taken? line = none ↔ ¬ kind.Counts line := by
  rw [taken?, Counts]
  by_cases h : kind.Skips line
  · simp [h]
  · simp [h, declared?_eq_none_iff]

theorem receiver?_eq_some_iff {before : List Char} {identifier : String} :
    kind.receiver? before = some identifier ↔
      ∃ line, kind.IsReceiverLine before.reverse line ∧ FirstDeclares line identifier := by
  rw [receiver?_eq, lastLines_eq, List.findSome?_eq_some_iff]
  constructor
  · rintro ⟨nearer, line, farther, hlines, hline, hnearer⟩
    obtain ⟨hskips, hfirst⟩ := taken?_eq_some_iff.1 hline
    have hat := hfirst.choose_spec.1
    exact ⟨line, ⟨nearer, farther, hlines, ⟨hskips, _, identifier, hat⟩,
      fun other ho => taken?_eq_none_iff.1 (hnearer other ho)⟩, hfirst⟩
  · rintro ⟨line, ⟨nearer, farther, hlines, ⟨hskips, -⟩, hnearer⟩, hfirst⟩
    exact ⟨nearer, line, farther, hlines, taken?_eq_some_iff.2 ⟨hskips, hfirst⟩,
      fun other ho => taken?_eq_none_iff.2 (hnearer other ho)⟩

/-! ## What is bound -/

/-- What a call binds: an identifier and its namespace. -/
def bound? (m : Match) : Option (String × String) :=
  m.fields.head?.bind fun nspace =>
    (kind.receiver? m.before).map fun identifier => (identifier, String.ofList nspace)

theorem bindings_addCall (kind : CallKind) (u : FileUsage) (m : Match) :
    (addCall kind.receiver? u m.before (m.fields.map String.ofList)).bindings =
      u.bindings.bindAll (kind.bound? m).toList := by
  have hnspace (nspace : String) : (u.addNamespace nspace).bindings = u.bindings := by
    unfold FileUsage.addNamespace
    split <;> rfl
  cases hfields : m.fields with
  | nil => simp [addCall, bound?, hfields, Bindings.bindAll]
  | cons nspace fields =>
    cases hreceiver : kind.receiver? m.before with
    | none => simp [addCall, bound?, hfields, hreceiver, Bindings.bindAll, hnspace]
    | some identifier =>
      simp [addCall, bound?, hfields, hreceiver, Bindings.bindAll, FileUsage.bind, hnspace]

theorem bindings_pass (kind : CallKind) (source : Source) (u : FileUsage) :
    (kind.pass source u).bindings =
      u.bindings.bindAll ((kind.shape.findAll source.text).filterMap kind.bound?) := by
  have hpass : kind.pass source u =
      eachMatch kind.shape source.text (addCall kind.receiver?) u := by
    cases kind <;> rfl
  rw [hpass, eachMatch]
  clear hpass
  induction kind.shape.findAll source.text generalizing u with
  | nil => rfl
  | cons m ms ih =>
    rw [List.foldl_cons, ih, bindings_addCall, List.filterMap_cons]
    cases kind.bound? m <;> rfl

theorem bound?_eq_some_iff {m : Match} {identifier nspace : String} :
    kind.bound? m = some (identifier, nspace) ↔
      m.fields.head? = some nspace.toList ∧ kind.receiver? m.before = some identifier := by
  rw [bound?, Option.bind_eq_some_iff]
  constructor
  · rintro ⟨field, hfield, h⟩
    obtain ⟨name, hname, h⟩ := Option.map_eq_some_iff.1 h
    cases h
    rw [String.toList_ofList]
    exact ⟨hfield, hname⟩
  · rintro ⟨hfield, hname⟩
    refine ⟨nspace.toList, hfield, ?_⟩
    rw [hname, Option.map_some, String.ofList_toList]

end CallKind

theorem FirstDeclares.lastDeclares {line : List Char} {identifier : String}
    (h : FirstDeclares line identifier) (honly : DeclaresOnly line identifier) :
    LastDeclares line identifier := by
  obtain ⟨front, hat, -⟩ := h
  obtain ⟨last, place, hplace, hlast⟩ := exists_lastDeclares hat
  obtain rfl := honly place last hplace
  exact ⟨place, hplace, hlast⟩

/-- The passes bind, for each call, the identifier that is declared first in the line that it
is taken from; where nothing else is declared there, it is the one declared last. -/
theorem receiver_is_declared_first (kind : CallKind) (source : Source) (u : FileUsage) :
    (kind.pass source u).bindings =
      u.bindings.bindAll ((kind.shape.findAll source.text).filterMap kind.bound?) ∧
    ∀ m ∈ kind.shape.findAll source.text, ∃ front rest,
      source.text = front ++ rest ∧ m.before = front.reverse ∧
      ∀ identifier nspace, kind.bound? m = some (identifier, nspace) ↔
        m.fields.head? = some nspace.toList ∧
          ∃ line, kind.IsReceiverLine front line ∧ FirstDeclares line identifier ∧
            (DeclaresOnly line identifier → LastDeclares line identifier) := by
  refine ⟨kind.bindings_pass source u, fun m hm => ?_⟩
  obtain ⟨rest, _, htext, -⟩ := match?_of_mem_findAll hm
  refine ⟨m.before.reverse, rest, htext, (List.reverse_reverse _).symm, fun identifier nspace => ?_⟩
  rw [CallKind.bound?_eq_some_iff, CallKind.receiver?_eq_some_iff]
  constructor
  · rintro ⟨hnspace, line, hline, hfirst⟩
    exact ⟨hnspace, line, hline, hfirst, hfirst.lastDeclares⟩
  · rintro ⟨hnspace, line, hline, hfirst, -⟩
    exact ⟨hnspace, line, hline, hfirst⟩

/-- A call in the line after its declaration. -/
def awaited : List Char := "const t =\n  await ".toList

def awaitedSource : Source :=
  ⟨"a.ts".toList, awaited ++ "getTranslations('home');".toList⟩

theorem receiver_is_declared_first_awaited :
    (CallKind.namespaceCall.pass awaitedSource (FileUsage.empty ⟨"a.ts"⟩)).bindings =
        Bindings.empty.bindAll [("t", "home")] ∧
      ∃ line, CallKind.namespaceCall.IsReceiverLine awaited line ∧ FirstDeclares line "t" ∧
        LastDeclares line "t" := by
  obtain ⟨hbindings, hcalls⟩ :=
    receiver_is_declared_first .namespaceCall awaitedSource (FileUsage.empty ⟨"a.ts"⟩)
  have hbound : (CallKind.namespaceCall.shape.findAll awaitedSource.text).filterMap
      CallKind.namespaceCall.bound? = [("t", "home")] := by decide
  obtain ⟨front, rest, -, hfront, hcall⟩ := hcalls ⟨awaited.reverse, ["home".toList]⟩ (by decide)
  obtain rfl : awaited = front := List.reverse_inj.1 hfront
  obtain ⟨-, line, hline, hfirst, hlast⟩ := (hcall "t" "home").1 (by decide)
  have hdeclared : DeclaresAfter "const t =".toList [] "t" :=
    ⟨_, by decide, startsDeclaration_spaced (by decide) (List.all_eq_true.1 (by decide)) []⟩
  have hnearest : CallKind.namespaceCall.IsReceiverLine awaited "const t =".toList := by
    refine ⟨["  await ".toList], [], by decide, ⟨?_, _, _, hdeclared⟩, fun other ho hcounts => ?_⟩
    · decide
    · obtain rfl := List.mem_singleton.1 ho
      exact absurd (CallKind.taken?_eq_none_iff.1 (by decide)) (not_not_intro hcounts)
  obtain rfl := hline.unique hnearest
  have honly : constant.fieldsEverywhere "const t =".toList = [[['t']]] := by decide
  refine ⟨by rw [hbindings, hbound]; rfl, _, hline, hfirst, hlast fun place name h => ?_⟩
  have hname := h.mem_fieldsEverywhere
  rw [honly, List.mem_singleton] at hname
  exact String.toList_inj.1 (List.cons.inj hname).1

/-- Two declarations, the second one for a call. -/
def twoDeclared : List Char := "const x = f(); const t = await ".toList

def twoDeclaredSource : Source :=
  ⟨"a.ts".toList, twoDeclared ++ "getTranslations('home');".toList⟩

/-- The identifier bound may not be the one declared nearest to the call. -/
theorem receiver_may_be_declared_earlier :
    ¬ ∀ (kind : CallKind) (source : Source), ∀ m ∈ kind.shape.findAll source.text,
      ∀ identifier nspace line, kind.bound? m = some (identifier, nspace) →
        kind.IsReceiverLine m.before.reverse line → LastDeclares line identifier := by
  intro h
  have hlater : DeclaresAfter twoDeclared "const x = f(); ".toList "t" :=
    ⟨_, by decide,
      startsDeclaration_spaced (by decide) (List.all_eq_true.1 (by decide)) " await ".toList⟩
  have hskips : ¬ CallKind.namespaceCall.Skips twoDeclared := by decide
  have hline : CallKind.namespaceCall.IsReceiverLine twoDeclared.reverse.reverse twoDeclared :=
    ⟨[], [], by decide, ⟨hskips, _, _, hlater⟩, by simp⟩
  obtain ⟨front, ⟨text, hsplit, hdeclared⟩, hlast⟩ :=
    h .namespaceCall twoDeclaredSource ⟨twoDeclared.reverse, ["home".toList]⟩ (by decide) "x" "home"
      twoDeclared (by decide) hline
  -- a declaration of `x` that is no earlier would hold an `x` after the first declaration
  have hle : 15 ≤ front.length := hlast _ "t" hlater
  have htext : twoDeclared.drop front.length = text := by rw [hsplit, List.drop_left]
  have hmem : 'x' ∈ (twoDeclared.drop 15).drop (front.length - 15) := by
    obtain ⟨gap, more, rest, rfl, -⟩ := hdeclared
    rw [List.drop_drop, Nat.add_sub_cancel' hle, htext]
    simp
  exact absurd (List.mem_of_mem_drop hmem) (by decide)

end CatalogAudit.Scan
