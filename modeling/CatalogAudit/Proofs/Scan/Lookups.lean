/-
  CatalogAudit.Proofs.Scan.Lookups — the calls through which keys are looked up.

  A call that a pass finds stands in the text: a whole word, an opening parenthesis and the
  argument, with blanks around it (`CallsAfter`). The calls with a literal, with a template and
  with a property are listed as the passes find them (`literalCalls`, `templateCalls`,
  `propertyCalls`), from left to right (`pairwise_callsOf`).

  What a pass over such calls adds to the record of a file depends on the bindings alone
  (`Adds`), which no lookup changes. So the pass adds what is found for one call after the other
  (`eachMatch_eq_add`).
-/

import CatalogAudit.Proofs.Scan.WordEdges
import CatalogAudit.Scan.Lookup

namespace CatalogAudit.Shape

open Text Text.Pattern

/-! ## Calls in a text -/

/-- A word: characters that belong to words, at least one. -/
def IsWordText (name : List Char) : Prop := name ≠ [] ∧ ∀ c ∈ name, isWord c = true

/-- In a text, after `front`, stands a call of a whole word with one argument. -/
def CallsAfter (text front identifier argument : List Char) : Prop :=
  ∃ gap more rest,
    text = front ++ (identifier ++ '(' :: (gap ++ (argument ++ (more ++ ')' :: rest)))) ∧
      front.getLast?.any isWord = false ∧ IsWordText identifier ∧
      (∀ c ∈ gap, isBlank c = true) ∧ ∀ c ∈ more, isBlank c = true

section
variable {a : Pattern} {c d : Cursor} {fields : List (List Char)}

theorem takes_word (h : Matches word c fields d) :
    ∃ name, IsWordText name ∧ c.before.head?.any isWord = false ∧ c.after = name ++ d.after ∧
      fields = [name] := by
  obtain ⟨_, start, _, edge, field, rfl⟩ := matches_seq.1 h
  obtain ⟨hedge, rfl, rfl⟩ := matches_edge.1 edge
  obtain ⟨name, hne, hname, hafter, rfl⟩ := takes_field field
  refine ⟨name, ⟨hne, hname⟩, ?_, hafter, rfl⟩
  obtain ⟨x, name, rfl⟩ := List.exists_cons_of_ne_nil hne
  simpa [Cursor.isEdge, hafter, hname x List.mem_cons_self] using hedge

theorem takes_call (h : Matches (wholeCall a) c fields d) :
    ∃ identifier found gap more start stop, fields = identifier :: found ∧
      IsWordText identifier ∧ c.before.head?.any isWord = false ∧
      (∀ x ∈ gap, isBlank x = true) ∧ (∀ x ∈ more, isBlank x = true) ∧
      Matches a start found stop ∧
      c.after = identifier ++ '(' :: (gap ++ start.after) ∧
      stop.after = more ++ ')' :: d.after := by
  obtain ⟨_, mid, found, hword, hargument, rfl⟩ := matches_seq.1 h
  obtain ⟨identifier, hidentifier, hbefore, hafter, rfl⟩ := takes_word hword
  obtain ⟨gap, more, start, stop, hgap, hmore, hopen, ha, hclose⟩ := takes_argument hargument
  exact ⟨identifier, found, gap, more, start, stop, rfl, hidentifier, hbefore, hgap, hmore, ha,
    by rw [hafter, hopen], hclose⟩

/-- A call that is found stands in the text, and its argument is what `a` takes. -/
theorem callsAfter_of_mem_findAll {m : Match} {text : List Char}
    (h : m ∈ (wholeCall a).findAll text) :
    ∃ identifier found start stop, m.fields = identifier :: found ∧ Matches a start found stop ∧
      ∀ argument, start.after = argument ++ stop.after →
        CallsAfter text m.before.reverse identifier argument := by
  obtain ⟨rest, d, htext, hm⟩ := match?_of_mem_findAll h
  obtain ⟨identifier, found, gap, more, start, stop, hfields, hidentifier, hbefore, hgap, hmore, ha,
    hafter, hclose⟩ := takes_call (match?_sound hm)
  refine ⟨identifier, found, start, stop, hfields, ha, fun argument hstart => ?_⟩
  refine ⟨gap, more, d.after, ?_, by simpa using hbefore, hidentifier, hgap, hmore⟩
  dsimp only at hafter
  rw [htext, hafter, hstart, hclose]

/-! ## Literals, templates and properties -/

/-- A text in quotes, single or double, that is not empty and holds no quotes. -/
def IsQuoted (key written : List Char) : Prop :=
  ∃ opening closing, written = opening :: (key ++ [closing]) ∧ isQuote opening = true ∧
    isQuote closing = true ∧ key ≠ [] ∧ ∀ c ∈ key, notQuote c = true

theorem takes_quoted (h : Matches quotedField c fields d) :
    ∃ key written, IsQuoted key written ∧ fields = [key] ∧ c.after = written ++ d.after := by
  obtain ⟨_, _, _, first, fromField, rfl⟩ := matches_seq.1 h
  obtain ⟨_, _, _, field, fromClosing, rfl⟩ := matches_seq.1 fromField
  obtain ⟨_, _, _, last, finish, rfl⟩ := matches_seq.1 fromClosing
  cases finish
  obtain ⟨opening, hopening, hfirst, rfl⟩ := takes_one first
  obtain ⟨key, hne, hkey, hfield, rfl⟩ := takes_field field
  obtain ⟨closing, hclosing, hlast, rfl⟩ := takes_one last
  refine ⟨key, _, ⟨opening, closing, rfl, hopening, hclosing, hne, hkey⟩, rfl, ?_⟩
  rw [hfirst, hfield, hlast]
  simp

theorem takes_template (h : Matches templateField c fields d) :
    ∃ template, template ≠ [] ∧ '`' ∉ template ∧ fields = [template] ∧
      c.after = '`' :: (template ++ ['`']) ++ d.after := by
  obtain ⟨_, _, _, opening, fromField, rfl⟩ := matches_seq.1 h
  obtain ⟨_, _, _, field, fromClosing, rfl⟩ := matches_seq.1 fromField
  obtain ⟨_, _, _, closing, finish, rfl⟩ := matches_seq.1 fromClosing
  cases finish
  obtain ⟨hopening, rfl⟩ := takes_text opening
  obtain ⟨template, hne, htemplate, hfield, rfl⟩ := takes_field field
  obtain ⟨hclosing, rfl⟩ := takes_text closing
  refine ⟨template, hne, fun hm => absurd (htemplate _ hm) (by decide), rfl, ?_⟩
  rw [hopening, hfield, hclosing]
  simp

theorem takes_dotted (h : Matches wholeDotted c fields d) :
    ∃ owner name, IsWordText owner ∧ IsWordText name ∧ fields = [owner, name] ∧
      c.after = owner ++ '.' :: name ++ d.after := by
  obtain ⟨_, _, _, first, fromDot, rfl⟩ := matches_seq.1 h
  obtain ⟨_, _, _, dot, fromName, rfl⟩ := matches_seq.1 fromDot
  obtain ⟨_, _, _, second, finish, rfl⟩ := matches_seq.1 fromName
  cases finish
  obtain ⟨owner, howner, -, hfirst, rfl⟩ := takes_word first
  obtain ⟨hdot, rfl⟩ := takes_text dot
  obtain ⟨name, hname, -, hsecond, rfl⟩ := takes_word second
  refine ⟨owner, name, howner, hname, rfl, ?_⟩
  rw [hfirst, hdot, hsecond]
  simp

end

section
variable {m : Match} {text : List Char}

theorem literal_of_mem_findAll (h : m ∈ literalCall.findAll text) :
    ∃ identifier key written, m.fields = [identifier, key] ∧ IsQuoted key written ∧
      CallsAfter text m.before.reverse identifier written := by
  rw [literalCall, findAll_wordCall] at h
  obtain ⟨identifier, _, start, stop, hfields, ha, hcall⟩ := callsAfter_of_mem_findAll h
  obtain ⟨key, written, hquoted, rfl, hstart⟩ := takes_quoted ha
  exact ⟨identifier, key, written, hfields, hquoted, hcall _ hstart⟩

theorem template_of_mem_findAll (h : m ∈ templateCall.findAll text) :
    ∃ identifier template, m.fields = [identifier, template] ∧ template ≠ [] ∧ '`' ∉ template ∧
      CallsAfter text m.before.reverse identifier ('`' :: (template ++ ['`'])) := by
  rw [templateCall, findAll_wordCall] at h
  obtain ⟨identifier, _, start, stop, hfields, ha, hcall⟩ := callsAfter_of_mem_findAll h
  obtain ⟨template, hne, hbacktick, rfl, hstart⟩ := takes_template ha
  exact ⟨identifier, template, hfields, hne, hbacktick, hcall _ hstart⟩

theorem property_of_mem_findAll (h : m ∈ propertyCall.findAll text) :
    ∃ identifier owner name, m.fields = [identifier, owner, name] ∧ IsWordText owner ∧
      IsWordText name ∧ CallsAfter text m.before.reverse identifier (owner ++ '.' :: name) := by
  rw [propertyCall, findAll_dottedCall] at h
  obtain ⟨identifier, _, start, stop, hfields, ha, hcall⟩ := callsAfter_of_mem_findAll h
  obtain ⟨owner, name, howner, hname, rfl, hstart⟩ := takes_dotted ha
  exact ⟨identifier, owner, name, hfields, howner, hname, hcall _ hstart⟩

end

end CatalogAudit.Shape

namespace CatalogAudit

/-! ## Findings -/

/-- What is found at a place of a text. -/
structure Finding where
  keys : List String
  notes : List Note
  deriving DecidableEq, Repr

def Finding.all (fs : List Finding) : Finding := ⟨fs.flatMap (·.keys), fs.flatMap (·.notes)⟩

/-- Adds what is found to the record of a file. -/
def FileUsage.add (u : FileUsage) (f : Finding) : FileUsage :=
  { u with keys := u.keys ++ f.keys, notes := u.notes ++ f.notes }

namespace Scan

open Text Text.Pattern Shape Source

section
variable (step : FileUsage → List String → FileUsage)

/-- What a step finds in a file with these bindings. -/
def found (b : Bindings) (fields : List String) : Finding :=
  let u := step { FileUsage.empty ⟨""⟩ with bindings := b } fields
  ⟨u.keys, u.notes⟩

/-- A step that adds what it finds, whatever else is known of the file. -/
def Adds : Prop := ∀ u fields, step u fields = u.add (found step u.bindings fields)

end

theorem adds_addLiteral : Adds addLiteral := by
  intro u fields
  unfold found addLiteral
  split
  · dsimp only
    split
    · split <;> simp [FileUsage.add, FileUsage.empty, FileUsage.addKey]
    · simp [FileUsage.add, FileUsage.empty]
  · simp [FileUsage.add, FileUsage.empty]

theorem adds_addTemplate (rules : ScanRules) : Adds (addTemplate rules) := by
  intro u fields
  unfold found addTemplate
  split
  · dsimp only
    split
    · simp [FileUsage.add, FileUsage.empty]
    · split
      · split
        · unfold addStaticTemplate
          dsimp only
          split <;> split <;>
            simp [FileUsage.add, FileUsage.empty, FileUsage.addKey, FileUsage.addKeys,
              FileUsage.addNote]
        · simp [FileUsage.add, FileUsage.empty]
      · split
        · unfold addOpenTemplate
          dsimp only
          split <;> simp [FileUsage.add, FileUsage.empty, FileUsage.addKeys, FileUsage.addNote]
        · simp [FileUsage.add, FileUsage.empty]
  · simp [FileUsage.add, FileUsage.empty]

theorem adds_addProperty (traced : Assoc String String) (hints : List Hint) :
    Adds (addProperty traced hints) := by
  intro u fields
  unfold found addProperty
  split
  · dsimp only
    split
    · simp [FileUsage.add, FileUsage.empty]
    · split
      · simp [FileUsage.add, FileUsage.empty, FileUsage.addKey, FileUsage.addNote]
      · split <;> simp [FileUsage.add, FileUsage.empty, FileUsage.addKeys, FileUsage.addNote]
  · simp [FileUsage.add, FileUsage.empty]

/-! ## The calls of a text -/

/-- A call with an argument, found in a text after `front`. -/
structure Call (α : Type) where
  front : List Char
  identifier : String
  argument : α
  deriving DecidableEq, Repr

/-- A property of a variable. -/
structure Property where
  owner : String
  name : String
  deriving DecidableEq, Repr

def Property.text (p : Property) : String := p.owner ++ "." ++ p.name

def template? : (operands : List String) → Option String
  | [template] => some template
  | _ => none

def property? : (operands : List String) → Option Property
  | [owner, name] => some ⟨owner, name⟩
  | _ => none

section
variable {α : Type} (read : List String → Option α)

/-- The call of a match: its first field is the identifier, and the others tell the argument. -/
def Call.ofMatch? (m : Match) : Option (Call α) :=
  match m.fields.map String.ofList with
  | identifier :: operands => (read operands).map (⟨m.before.reverse, identifier, ·⟩)
  | [] => none

/-- The calls of a shape, as they are found in a text. -/
def callsOf (shape : Text.Pattern) (text : List Char) : List (Call α) :=
  (shape.findAll text).filterMap (Call.ofMatch? read)

variable {read} {shape : Text.Pattern} {text : List Char} {m : Match} {c : Call α}

theorem Call.ofMatch?_eq_some_iff :
    ofMatch? read m = some c ↔ m.before = c.front.reverse ∧ ∃ operands,
      m.fields.map String.ofList = c.identifier :: operands ∧ read operands = some c.argument := by
  obtain ⟨front, identifier, argument⟩ := c
  unfold ofMatch?
  split
  · next hfields =>
    rw [hfields, Option.map_eq_some_iff]
    constructor
    · rintro ⟨a, ha, h⟩
      cases h
      exact ⟨(List.reverse_reverse _).symm, _, rfl, ha⟩
    · rintro ⟨hbefore, operands, hcons, ha⟩
      cases hcons
      exact ⟨argument, ha, by rw [hbefore, List.reverse_reverse]⟩
  · next hfields =>
    rw [hfields]
    simp

/-- The call of a match with two fields. -/
theorem Call.ofMatch?_of_pair {identifier operand : List Char}
    (h : m.fields = [identifier, operand]) :
    Call.ofMatch? template? m =
      some ⟨m.before.reverse, String.ofList identifier, String.ofList operand⟩ := by
  simp [Call.ofMatch?, h, template?]

/-- The call of a match with three fields. -/
theorem Call.ofMatch?_of_triple {identifier owner name : List Char}
    (h : m.fields = [identifier, owner, name]) :
    Call.ofMatch? property? m =
      some ⟨m.before.reverse, String.ofList identifier, String.ofList owner,
        String.ofList name⟩ := by
  simp [Call.ofMatch?, h, property?]

theorem template?_eq_some_iff {operands : List String} {template : String} :
    template? operands = some template ↔ operands = [template] := by
  unfold template?
  split <;> simp_all

theorem mem_callsOf :
    c ∈ callsOf read shape text ↔ ∃ m ∈ shape.findAll text, Call.ofMatch? read m = some c :=
  List.mem_filterMap

/-- The calls of a text are listed from left to right. -/
theorem pairwise_callsOf (read : List String → Option α) (shape : Text.Pattern)
    (text : List Char) :
    (callsOf read shape text).Pairwise fun c d => c.front.length < d.front.length := by
  refine List.Pairwise.filterMap _ (fun m n hlt c hc d hd => ?_) (pairwise_findAll shape text)
  have hcBefore := (Call.ofMatch?_eq_some_iff.1 hc).1
  have hdBefore := (Call.ofMatch?_eq_some_iff.1 hd).1
  simpa [hcBefore, hdBefore] using hlt

/-- A pass adds what it finds for one call after the other. -/
theorem eachMatch_eq_add {step : FileUsage → List String → FileUsage} (hadds : Adds step)
    {finding : Bindings → Call α → Finding}
    (hfinding : ∀ b c operands, read operands = some c.argument →
      found step b (c.identifier :: operands) = finding b c)
    (hcalls : ∀ m ∈ shape.findAll text, ∃ c, Call.ofMatch? read m = some c) (u : FileUsage) :
    eachMatch shape text (fun u _ fields => step u fields) u =
      u.add (.all ((callsOf read shape text).map (finding u.bindings))) := by
  unfold eachMatch callsOf
  generalize shape.findAll text = found at hcalls ⊢
  induction found generalizing u with
  | nil => simp [FileUsage.add, Finding.all]
  | cons m ms ih =>
    obtain ⟨hm, hms⟩ := List.forall_mem_cons.1 hcalls
    obtain ⟨c, hc⟩ := hm
    obtain ⟨-, operands, hfields, hread⟩ := Call.ofMatch?_eq_some_iff.1 hc
    have hstep : step u (m.fields.map String.ofList) = u.add (finding u.bindings c) := by
      rw [hadds, hfields, hfinding _ _ _ hread]
    rw [List.foldl_cons, ih _ hms, List.filterMap_cons_some hc]
    dsimp only
    rw [hstep]
    simp [FileUsage.add, Finding.all]

end

theorem isPlausibleKey_iff {key : List Char} :
    isPlausibleKey key = true ↔ key ≠ [] ∧ '/' ∉ key := by
  simp [isPlausibleKey]

/-! ## Literals -/

def literalCalls : (text : List Char) → List (Call String) := callsOf template? literalCall

theorem exists_literal_ofMatch? {text : List Char} {m : Match}
    (h : m ∈ literalCall.findAll text) :
    ∃ c, Call.ofMatch? template? m = some c := by
  obtain ⟨_, _, -, hfields, -⟩ := literal_of_mem_findAll h
  exact ⟨_, Call.ofMatch?_of_pair hfields⟩

theorem callsAfter_of_mem_literalCalls {text : List Char} {c : Call String}
    (h : c ∈ literalCalls text) :
    ∃ written, IsQuoted c.argument.toList written ∧
      CallsAfter text c.front c.identifier.toList written := by
  obtain ⟨m, hm, hc⟩ := mem_callsOf.1 h
  obtain ⟨identifier, key, written, hfields, hquoted, hcall⟩ := literal_of_mem_findAll hm
  cases (Call.ofMatch?_of_pair hfields).symm.trans hc
  exact ⟨written, by simpa using hquoted, by simpa using hcall⟩

/-- What is found for a call with a literal. -/
def literalFinding (b : Bindings) (c : Call String) : Finding :=
  found addLiteral b [c.identifier, c.argument]

theorem literalKeys_eq_add (source : Source) (u : FileUsage) :
    literalKeys source u =
      u.add (.all ((literalCalls source.text).map (literalFinding u.bindings))) := by
  refine eachMatch_eq_add adds_addLiteral (fun b c operands hread => ?_)
    (fun m hm => exists_literal_ofMatch? hm) u
  rw [template?_eq_some_iff.1 hread]
  rfl

/-! ## Templates -/

def templateCalls : (text : List Char) → List (Call String) := callsOf template? templateCall

theorem exists_template_ofMatch? {text : List Char} {m : Match}
    (h : m ∈ templateCall.findAll text) :
    ∃ c, Call.ofMatch? template? m = some c := by
  obtain ⟨_, _, hfields, -⟩ := template_of_mem_findAll h
  exact ⟨_, Call.ofMatch?_of_pair hfields⟩

theorem callsAfter_of_mem_templateCalls {text : List Char} {c : Call String}
    (h : c ∈ templateCalls text) :
    c.argument ≠ "" ∧ '`' ∉ c.argument.toList ∧
      CallsAfter text c.front c.identifier.toList ('`' :: (c.argument.toList ++ ['`'])) := by
  obtain ⟨m, hm, hc⟩ := mem_callsOf.1 h
  obtain ⟨identifier, template, hfields, hne, hbacktick, hcall⟩ := template_of_mem_findAll hm
  cases (Call.ofMatch?_of_pair hfields).symm.trans hc
  simpa using ⟨hne, hbacktick, hcall⟩

/-- What is found for a call with a template. -/
def templateFinding (rules : ScanRules) (b : Bindings) (c : Call String) : Finding :=
  found (addTemplate rules) b [c.identifier, c.argument]

theorem templateKeys_eq_add (rules : ScanRules) (source : Source) (u : FileUsage) :
    templateKeys rules source u =
      u.add (.all ((templateCalls source.text).map (templateFinding rules u.bindings))) := by
  refine eachMatch_eq_add (adds_addTemplate rules) (fun b c operands hread => ?_)
    (fun m hm => exists_template_ofMatch? hm) u
  rw [template?_eq_some_iff.1 hread]
  rfl

/-! ## Properties -/

def propertyCalls : (text : List Char) → List (Call Property) := callsOf property? propertyCall

theorem exists_property_ofMatch? {text : List Char} {m : Match}
    (h : m ∈ propertyCall.findAll text) :
    ∃ c, Call.ofMatch? property? m = some c := by
  obtain ⟨_, _, _, hfields, -⟩ := property_of_mem_findAll h
  exact ⟨_, Call.ofMatch?_of_triple hfields⟩

/-- What is found for a call with a property. -/
def propertyFinding (rules : ScanRules) (text : List Char) (b : Bindings) (c : Call Property) :
    Finding :=
  found (addProperty (tracedKeys text) (rules.hints.filter (·.applies text))) b
    [c.identifier, c.argument.owner, c.argument.name]

theorem propertyKeys_eq_add (rules : ScanRules) (source : Source) (u : FileUsage) :
    propertyKeys rules source u =
      u.add (.all ((propertyCalls source.text).map
        (propertyFinding rules source.text u.bindings))) := by
  refine eachMatch_eq_add (adds_addProperty _ _) (fun b c operands hread => ?_)
    (fun m hm => exists_property_ofMatch? hm) u
  unfold property? at hread
  split at hread
  · simp only [Option.some.injEq] at hread
    rw [propertyFinding, ← hread]
  · cases hread

end Scan

end CatalogAudit
