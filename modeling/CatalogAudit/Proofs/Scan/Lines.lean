/-
  CatalogAudit.Proofs.Scan.Lines — sources made of declarations and lookups.

  A source may be a list of lines of two kinds: one declares an identifier for a namespace by
  the hook, the other looks a key up through an identifier (`Line`, `sourceText`). In each line
  stands one call, with nothing before it in which a call starts. So a pass over such a source
  finds the call of a line or finds nothing in it (`search_line_of_match`,
  `search_line_of_no_match`), and what it does to the record of the file is said line by line
  (`eachMatch_sourceText`).
-/

import CatalogAudit.Proofs.Scan.Calls
import CatalogAudit.Scan.Source
import Mathlib.Data.List.Basic

namespace CatalogAudit.Scan

open Text Text.Pattern Shape Source

/-! ## Lines -/

def isIdentifierChar (c : Char) : Bool := c.isAlphanum || c == '_'

def isNameChar (c : Char) : Bool := isIdentifierChar c || c == '-' || c == '.'

/-- A word of ASCII that does not end in the name of a call that gives a namespace. -/
structure Identifier where
  text : String
  ne_empty : text ≠ ""
  chars : ∀ c ∈ text.toList, isIdentifierChar c = true
  not_hook : ¬ useTranslations <:+ text.toList
  not_call : ¬ getTranslations <:+ text.toList

/-- A namespace or a key, without quotes and slashes. -/
structure Name where
  text : String
  ne_empty : text ≠ ""
  chars : ∀ c ∈ text.toList, isNameChar c = true

inductive Line where
  /-- `const t = useTranslations("home");` -/
  | declaration (identifier : Identifier) (nspace : Name)
  /-- `t("title");` -/
  | lookup (identifier : Identifier) (key : Name)

def Line.text : Line → String
  | .declaration identifier nspace =>
    "const " ++ identifier.text ++ " = useTranslations(\"" ++ nspace.text ++ "\");"
  | .lookup identifier key => identifier.text ++ "(\"" ++ key.text ++ "\");"

def sourceText (lines : List Line) : String := joined "\n" (lines.map Line.text)

/-! ## The characters of a line -/

theorem useTranslations_ne_nil : useTranslations ≠ [] := by decide

theorem isWord_of_mem_useTranslations : ∀ c ∈ useTranslations, isWord c = true :=
  List.all_eq_true.1 (by decide)

theorem isWord_of_mem_getTranslations : ∀ c ∈ getTranslations, isWord c = true :=
  List.all_eq_true.1 (by decide)

theorem isWord_of_isIdentifierChar {c : Char} (h : isIdentifierChar c = true) :
    isWord c = true := by
  simp only [isIdentifierChar, Bool.or_eq_true, beq_iff_eq] at h
  rcases h with h | rfl
  · exact isWord_of_isAlphanum h
  · decide

/-- No name holds a character that is none of a name. -/
theorem Name.not_mem (name : Name) {c : Char} (hc : isNameChar c = false) :
    c ∉ name.text.toList := by
  intro hm
  rw [name.chars c hm] at hc
  cases hc

theorem Name.toList_ne_nil (name : Name) : name.text.toList ≠ [] :=
  fun h => name.ne_empty (String.toList_eq_nil_iff.1 h)

theorem Name.notQuote (name : Name) : ∀ c ∈ name.text.toList, notQuote c = true := by
  intro c hc
  have hsingle : c ≠ '\'' := fun h => name.not_mem (by decide) (h ▸ hc)
  have hdouble : c ≠ '"' := fun h => name.not_mem (by decide) (h ▸ hc)
  simp [Shape.notQuote, isQuote, hsingle, hdouble]

theorem Identifier.toList_ne_nil (identifier : Identifier) : identifier.text.toList ≠ [] :=
  fun h => identifier.ne_empty (String.toList_eq_nil_iff.1 h)

theorem Identifier.isWord_of_mem (identifier : Identifier) :
    ∀ c ∈ identifier.text.toList, isWord c = true :=
  fun c hc => isWord_of_isIdentifierChar (identifier.chars c hc)

theorem Identifier.not_mem (identifier : Identifier) {c : Char}
    (hc : isIdentifierChar c = false) : c ∉ identifier.text.toList := by
  intro hm
  rw [identifier.chars c hm] at hc
  cases hc

/-- A declaration up to the blank before its call. -/
def Identifier.receiver (identifier : Identifier) : List Char :=
  ("const " ++ identifier.text ++ " =").toList

theorem Identifier.not_mem_receiver (identifier : Identifier) {c : Char}
    (hc : isIdentifierChar c = false) (hblank : c ≠ ' ') (hequals : c ≠ '=') :
    c ∉ identifier.receiver := by
  have hconst : "const ".toList = ['c', 'o', 'n', 's', 't', ' '] := by decide
  have hsign : " =".toList = [' ', '='] := by decide
  have hletters : ∀ x ∈ ['c', 'o', 'n', 's', 't'], isIdentifierChar x = true :=
    List.all_eq_true.1 (by decide)
  have hletter : c ∉ ['c', 'o', 'n', 's', 't'] := fun hm => by
    rw [hletters c hm] at hc
    cases hc
  have htext := identifier.not_mem hc
  simp only [receiver, String.toList_append, List.mem_append, not_or, hconst, hsign]
  simp_all

namespace Line

/-- What stands in a line before its call. -/
def lead : Line → List Char
  | .declaration identifier _ => identifier.receiver ++ [' ']
  | .lookup .. => []

def callee : Line → List Char
  | .declaration .. => useTranslations
  | .lookup identifier _ => identifier.text.toList

def argument : Line → Name
  | .declaration _ nspace => nspace
  | .lookup _ key => key

def call (line : Line) : List Char := callText line.callee line.argument.text.toList

def chars (line : Line) : List Char := line.lead ++ (line.call ++ [';'])

theorem toList_text (line : Line) : line.text.toList = line.chars := by
  cases line with
  | declaration identifier nspace =>
    have hhook : " = useTranslations(\"".toList =
        " =".toList ++ ' ' :: (useTranslations ++ ['(', '"']) := by decide
    simp only [text, String.toList_append, hhook]
    simp [chars, lead, Identifier.receiver, call, callee, argument, callText, String.toList_append]
  | lookup identifier key =>
    simp only [text, String.toList_append]
    simp [chars, lead, call, callee, argument, callText]

variable (line : Line)

theorem chars_append (cs : List Char) :
    line.chars ++ cs = line.lead ++ (line.call ++ ';' :: cs) := by
  simp [chars]

theorem callee_ne_nil : line.callee ≠ [] := by
  cases line with
  | declaration identifier nspace => exact useTranslations_ne_nil
  | lookup identifier key => exact identifier.toList_ne_nil

theorem isWord_of_mem_callee : ∀ c ∈ line.callee, isWord c = true := by
  cases line with
  | declaration identifier nspace => exact isWord_of_mem_useTranslations
  | lookup identifier key => exact identifier.isWord_of_mem

end Line

/-! ## One line -/

/-- What comes before a place is empty or ends with a line. -/
def StartsLine (before : List Char) : Prop := ∀ c ∈ before.head?, c = '\n'

theorem startsLine_nil : StartsLine [] := fun _ hc => by cases hc

theorem startsLine_break (before : List Char) : StartsLine ('\n' :: before) := by
  intro c hc
  cases hc
  rfl

/-- Nothing of a class without the line break comes right before. -/
theorem StartsLine.any_head? {before : List Char} (h : StartsLine before) {p : Char → Bool}
    (hp : p '\n' = false) : before.head?.any p = false := by
  cases before with
  | nil => rfl
  | cons c before =>
    have hc : c = '\n' := h c rfl
    subst hc
    exact any_head?_cons hp before

section
variable {q : Text.Pattern} (hq : IsCall q) (line : Line) (before cs : List Char)
include hq

/-- No call starts in what stands before the call of a line. -/
theorem search_lead : q.search 0 before (line.lead ++ cs) =
    q.search 0 (line.lead.reverse ++ before) cs := by
  cases line with
  | declaration identifier nspace =>
    have hparen : '(' ∉ identifier.receiver :=
      identifier.not_mem_receiver (by decide) (by decide) (by decide)
    have hblank := search_quiet hq hparen (by decide)
      (by decide : isWord ' ' = false) before cs
    simpa only [Line.lead, List.append_assoc, List.singleton_append, List.reverse_append,
      List.reverse_singleton, List.cons_append, List.nil_append] using hblank
  | lookup identifier key => rfl

/-- No call starts at a character that belongs to no word and opens no argument. -/
theorem search_char {c : Char} (hparen : c ≠ '(') (hword : isWord c = false) :
    q.search 0 before (c :: cs) = q.search 0 (c :: before) cs :=
  search_quiet hq List.not_mem_nil hparen hword before cs

theorem search_semicolon : q.search 0 before (';' :: cs) = q.search 0 (';' :: before) cs :=
  search_char hq before cs (by decide) (by decide)

theorem search_break : q.search 0 before ('\n' :: cs) = q.search 0 ('\n' :: before) cs :=
  search_char hq before cs (by decide) (by decide)

/-- A line whose call is found. -/
theorem search_line_of_match {fields : List (List Char)}
    (h : q.match? ⟨line.lead.reverse ++ before, line.call ++ ';' :: cs⟩ =
      some (fields, ⟨line.call.reverse ++ (line.lead.reverse ++ before), ';' :: cs⟩)) :
    q.search 0 before (line.chars ++ cs) =
      ⟨line.lead.reverse ++ before, fields⟩ :: q.search 0 (line.chars.reverse ++ before) cs := by
  have hne : line.call ≠ [] := by simp [Line.call, callText]
  rw [line.chars_append, search_lead hq, search_of_match hne h, search_semicolon hq]
  simp [Line.chars]

/-- A line whose call is not found, as the pattern matches nowhere in its word. -/
theorem search_line_of_no_match
    (h : ∀ us vs, line.callee = us ++ vs → vs ≠ [] → ∀ fields d,
      ¬ Matches q ⟨us.reverse ++ (line.lead.reverse ++ before),
        vs ++ '(' :: ('"' :: (line.argument.text.toList ++ '"' :: ')' :: ';' :: cs))⟩ fields d) :
    q.search 0 before (line.chars ++ cs) = q.search 0 (line.chars.reverse ++ before) cs := by
  have hparen : '(' ∉ line.argument.text.toList := line.argument.not_mem (by decide)
  rw [line.chars_append, search_lead hq, Line.call, search_unmatched_call hq hparen _ _ h,
    search_semicolon hq]
  simp [Line.chars, Line.call]

end

/-! ## All lines -/

theorem toList_sourceText (lines : List Line) :
    (sourceText lines).toList = join ['\n'] (lines.map Line.chars) := by
  have hbreak : "\n".toList = ['\n'] := by decide
  simp only [sourceText, joined, String.toList_ofList, hbreak, List.map_map]
  exact congrArg (join ['\n']) (List.map_congr_left fun line _ => line.toList_text)

theorem mem_join {c : Char} {sep : List Char} {pieces : List (List Char)}
    (h : c ∈ join sep pieces) : c ∈ sep ∨ ∃ piece ∈ pieces, c ∈ piece := by
  induction pieces with
  | nil => cases h
  | cons piece pieces ih =>
    cases pieces with
    | nil => exact .inr ⟨piece, List.mem_cons_self, h⟩
    | cons next pieces =>
      rw [join, List.mem_append, List.mem_append] at h
      rcases h with (h | h) | h
      · exact .inr ⟨piece, List.mem_cons_self, h⟩
      · exact .inl h
      · rcases ih h with h | ⟨found, hf, hc⟩
        · exact .inl h
        · exact .inr ⟨found, List.mem_cons_of_mem piece hf, hc⟩
      · simp

theorem Line.angle_not_mem_chars (line : Line) : '<' ∉ line.chars := by
  have hname : '<' ∉ line.argument.text.toList := line.argument.not_mem (by decide)
  have hcallee : '<' ∉ line.callee := by
    intro hm
    have hword : isWord '<' = false := by decide
    rw [line.isWord_of_mem_callee _ hm] at hword
    cases hword
  have hlead : '<' ∉ line.lead := by
    cases line with
    | declaration identifier nspace =>
      have hreceiver : '<' ∉ identifier.receiver :=
        identifier.not_mem_receiver (by decide) (by decide) (by decide)
      simp [lead, hreceiver]
    | lookup identifier key => exact List.not_mem_nil
  simp [chars, call, callText, hname, hcallee, hlead]

theorem angle_not_mem_sourceText (lines : List Line) : '<' ∉ (sourceText lines).toList := by
  intro h
  rw [toList_sourceText] at h
  rcases mem_join h with h | ⟨piece, hpiece, hc⟩
  · exact absurd h (by decide)
  · obtain ⟨line, -, rfl⟩ := List.mem_map.1 hpiece
    exact line.angle_not_mem_chars hc

/-- A pass that treats the matches in each line as `step` does treats the source so, line by
line. -/
theorem eachMatch_sourceText {q : Text.Pattern} (hq : IsCall q)
    {f : FileUsage → List Char → List String → FileUsage} {step : FileUsage → Line → FileUsage}
    (hline : ∀ line before cs, StartsLine before → ∃ found,
      q.search 0 before (Line.chars line ++ cs) =
          found ++ q.search 0 (line.chars.reverse ++ before) cs ∧
        ∀ u, found.foldl (fun u m => f u m.before (m.fields.map String.ofList)) u = step u line)
    (lines : List Line) (u : FileUsage) :
    eachMatch q (sourceText lines).toList f u = lines.foldl step u := by
  have hlines : ∀ before u, StartsLine before →
      (q.search 0 before (join ['\n'] (lines.map Line.chars))).foldl
        (fun u m => f u m.before (m.fields.map String.ofList)) u = lines.foldl step u := by
    induction lines with
    | nil => exact fun _ _ _ => rfl
    | cons line lines ih =>
      intro before u hbefore
      cases lines with
      | nil =>
        obtain ⟨found, hsearch, hfold⟩ := hline line before [] hbefore
        rw [List.append_nil] at hsearch
        rw [List.map_cons, List.map_nil, join, hsearch, search, List.append_nil, hfold]
        rfl
      | cons next lines =>
        obtain ⟨found, hsearch, hfold⟩ := hline line before
          ('\n' :: join ['\n'] ((next :: lines).map Line.chars)) hbefore
        have hjoin : join ['\n'] ((line :: next :: lines).map Line.chars) =
            line.chars ++ '\n' :: join ['\n'] ((next :: lines).map Line.chars) := by
          simp [join]
        rw [hjoin, hsearch, search_break hq, List.foldl_append, hfold,
          ih _ _ (startsLine_break _)]
        rfl
  rw [eachMatch, findAll_eq, toList_sourceText]
  exact hlines [] u startsLine_nil

/-- A pass that finds nothing in any line. -/
theorem eachMatch_of_no_match {q : Text.Pattern} (hq : IsCall q)
    (h : ∀ line before cs us vs, Line.callee line = us ++ vs → vs ≠ [] → ∀ fields d,
      ¬ Matches q ⟨us.reverse ++ (line.lead.reverse ++ before),
        vs ++ '(' :: ('"' :: (line.argument.text.toList ++ '"' :: ')' :: ';' :: cs))⟩ fields d)
    (f : FileUsage → List Char → List String → FileUsage) (lines : List Line) (u : FileUsage) :
    eachMatch q (sourceText lines).toList f u = u := by
  have hsteps : eachMatch q (sourceText lines).toList f u = lines.foldl (fun u _ => u) u :=
    eachMatch_sourceText hq (fun line before cs _ =>
      ⟨[], search_line_of_no_match hq line before cs (h line before cs), fun _ => rfl⟩) lines u
  rw [hsteps, List.foldl_fixed]

end CatalogAudit.Scan
