/-
  CatalogAudit.Proofs.Scan.ReadBack — a source of declarations and lookups reads back.

  Of the six passes only two find anything in a source that is made of lines: the hook pass
  finds the declarations, and the pass over literals finds the call in every line, that of the
  hook among them, through which no key is looked up. So what is found is what the lines say,
  in their order (`scanText_sourceText`); a lookup may stand before its declaration.
-/

import CatalogAudit.Proofs.Scan.Lines
import CatalogAudit.Proofs.Scan.Receivers
import CatalogAudit.Scan.Pass

namespace CatalogAudit.Scan

open Text Text.Pattern Shape Source

/-! ## What lines say -/

/-- The identifier and the namespace of a declaration. -/
def Line.declared? : Line → Option (String × String)
  | .declaration identifier nspace => some (identifier.text, nspace.text)
  | .lookup .. => none

def declarations (lines : List Line) : List (String × String) := lines.filterMap Line.declared?

/-- The key of a lookup, where `declared` are the declarations of the whole source. -/
def Line.key? (declared : List (String × String)) : Line → Option String
  | .declaration .. => none
  | .lookup identifier key =>
    (lastNamespace? declared identifier.text).map fun nspace => fullKey nspace key.text

/-! ## The passes that find nothing -/

variable (lines : List Line) (path : List Char) (u : FileUsage)

theorem isWord_of_append {line : Line} {us vs : List Char} (h : line.callee = us ++ vs) :
    ∀ c ∈ vs, isWord c = true := fun c hc =>
  line.isWord_of_mem_callee c (h ▸ List.mem_append_right us hc)

theorem namespaceCalls_sourceText :
    namespaceCalls ⟨path, (sourceText lines).toList⟩ u = u := by
  have hcall : IsCall namespaceCall :=
    isCall_named (by decide) isWord_of_mem_getTranslations _
  refine eachMatch_of_no_match hcall
    (fun line before cs us vs hsplit hne fields d hm => ?_) _ lines u
  obtain ⟨rfl, -⟩ := matches_namedCall isWord_of_mem_getTranslations (isWord_of_append hsplit) hm
  have hsuffix : getTranslations <:+ line.callee := ⟨us, hsplit.symm⟩
  cases line with
  | declaration identifier nspace =>
    exact absurd hsuffix (by decide : ¬ getTranslations <:+ useTranslations)
  | lookup identifier key => exact identifier.not_call hsuffix

/-- A call of any word whose argument cannot start with a double quote. -/
theorem eachMatch_wordCall {a : Text.Pattern}
    (ha : ∀ before cs fields d, ¬ Matches a ⟨before, '"' :: cs⟩ fields d)
    (f : FileUsage → List Char → List String → FileUsage) :
    eachMatch (wordCall a) (sourceText lines).toList f u = u := by
  refine eachMatch_of_no_match (isCall_wordCall a)
    (fun line before cs us vs hsplit hne fields d hm => ?_) f lines u
  obtain ⟨found, stop, hargument⟩ := matches_wordCall (isWord_of_append hsplit) hm
  have hblank : isBlank '"' = false := by decide
  simp only [Cursor.skip, List.takeWhile_cons, List.dropWhile_cons, hblank] at hargument
  exact ha _ _ _ _ hargument

theorem templateKeys_sourceText (rules : ScanRules) :
    templateKeys rules ⟨path, (sourceText lines).toList⟩ u = u := by
  refine eachMatch_wordCall lines u (fun before cs fields d hm => ?_) _
  obtain ⟨_, _, _, hopen, -, -⟩ := matches_seq.1 hm
  obtain ⟨rest, hrest, -, -⟩ := matches_text.1 hopen
  exact absurd (List.cons.inj hrest).1 (by decide)

theorem propertyKeys_sourceText (rules : ScanRules) :
    propertyKeys rules ⟨path, (sourceText lines).toList⟩ u = u := by
  unfold propertyKeys
  refine eachMatch_wordCall lines u (fun before cs fields d hm => ?_) _
  obtain ⟨_, _, _, hfield, -, -⟩ := matches_seq.1 hm
  obtain ⟨hfirst, -, -⟩ := matches_field.1 hfield
  have hquote : isWord '"' = false := by decide
  exact Bool.false_ne_true (hquote.symm.trans hfirst)

/-- Without an opening angle bracket there is no component. -/
theorem componentKeys_of_not_mem (rules : ScanRules) {text : List Char} (h : '<' ∉ text) :
    componentKeys rules ⟨path, text⟩ u = u := by
  have hnone (component : String) (f : FileUsage → List Char → List String → FileUsage)
      (u : FileUsage) : eachMatch (idAttribute component.toList) text f u = u := by
    have hsearch : (idAttribute component.toList).search 0 [] text = [] := by
      refine search_eq_nil (fun c fields d hm => ?_) h []
      obtain ⟨_, _, _, hopen, -, -⟩ := matches_seq.1 hm
      obtain ⟨rest, hrest, -, -⟩ := matches_text.1 hopen
      exact ⟨rest, hrest⟩
    rw [eachMatch, findAll_eq, hsearch]
    rfl
  exact List.foldl_fixed' (fun component => hnone component _ u) rules.components

/-! ## The passes that find a call -/

/-- What the hook pass adds for a line. -/
def declare (u : FileUsage) (line : Line) : FileUsage :=
  match line.declared? with
  | some (identifier, nspace) => (u.addNamespace nspace).bind identifier nspace
  | none => u

/-- What the pass over literals adds for a line. -/
def lookUp (u : FileUsage) (line : Line) : FileUsage :=
  addLiteral u [String.ofList line.callee, line.argument.text]

theorem startsDeclaration_receiver (identifier : Identifier) (cs : List Char) :
    StartsDeclaration identifier.text.toList (identifier.receiver ++ cs) := by
  have htext : identifier.receiver ++ cs =
      "const ".toList ++ (identifier.text.toList ++ (" =".toList ++ cs)) := by
    simp only [Identifier.receiver, String.toList_append, List.append_assoc]
  rw [htext]
  exact startsDeclaration_spaced identifier.toList_ne_nil identifier.isWord_of_mem cs

/-- The identifier of a declaration is found in the line before the hook. -/
theorem inlineReceiver?_declaration (identifier : Identifier) (nspace : Name) {before : List Char}
    (h : StartsLine before) :
    inlineReceiver? ((Line.declaration identifier nspace).lead.reverse ++ before) =
      some identifier.text := by
  have hbreak : '\n' ∉ identifier.receiver :=
    identifier.not_mem_receiver (by decide) (by decide) (by decide)
  have hline : ∀ c ∈ (identifier.receiver ++ [' ']).reverse, (c != '\n') = true := by
    intro c hc
    rw [List.mem_reverse, List.mem_append, List.mem_singleton] at hc
    rcases hc with hc | rfl
    · exact bne_iff_ne.2 fun h => hbreak (h ▸ hc)
    · decide
  have hbefore : before.head?.any (· != '\n') = false := h.any_head? (by decide)
  have hlines (before : List Char) :
      lastLines 1 before = [(before.takeWhile (· != '\n')).reverse] := by
    rw [lastLines]
    split <;> rfl
  obtain ⟨stop, hmatch⟩ := match?_constant (startsDeclaration_receiver identifier [' ']) []
  have hfound := find?_of_match (by simp) hmatch
  rw [inlineReceiver?, hlines, Line.lead, takeWhile_append_eq hline hbefore, List.reverse_reverse,
    List.findSome?_singleton, declared?, hfound]
  simp

theorem hookCalls_sourceText :
    hookCalls ⟨path, (sourceText lines).toList⟩ u = lines.foldl declare u := by
  have hcall : IsCall hookCall :=
    isCall_named useTranslations_ne_nil isWord_of_mem_useTranslations _
  refine eachMatch_sourceText hcall (fun line before cs hbefore => ?_) lines u
  cases line with
  | declaration identifier nspace =>
    have hm := match?_namedCall nspace.toList_ne_nil nspace.notQuote useTranslations
      ((Line.declaration identifier nspace).lead.reverse ++ before) (';' :: cs)
    refine ⟨_ :: [], search_line_of_match hcall _ before cs hm, fun u => ?_⟩
    simp only [List.foldl_cons, List.foldl_nil, List.map_cons, List.map_nil, String.ofList_toList,
      addCall, inlineReceiver?_declaration identifier nspace hbefore]
    rfl
  | lookup identifier key =>
    refine ⟨[], search_line_of_no_match hcall _ before cs fun us vs hsplit hne fields d hm => ?_,
      fun _ => rfl⟩
    -- a match inside the identifier would make it end in the name of the hook
    obtain ⟨rfl, -⟩ :=
      matches_namedCall isWord_of_mem_useTranslations (isWord_of_append hsplit) hm
    exact identifier.not_hook ⟨us, hsplit.symm⟩

theorem literalKeys_sourceText :
    literalKeys ⟨path, (sourceText lines).toList⟩ u = lines.foldl lookUp u := by
  have hcall : IsCall literalCall := isCall_wordCall _
  refine eachMatch_sourceText hcall (fun line before cs hbefore => ?_) lines u
  have hm := match?_wordCall line.argument.toList_ne_nil line.argument.notQuote line.callee_ne_nil
    line.isWord_of_mem_callee (line.lead.reverse ++ before) (';' :: cs)
  refine ⟨_ :: [], search_line_of_match hcall line before cs hm, fun u => ?_⟩
  simp only [List.foldl_cons, List.foldl_nil, List.map_cons, List.map_nil, String.ofList_toList]
  rfl

/-! ## What is found -/

/-- The declarations of a source, as the record of its file. -/
def declaredUsage (file : Path) (pairs : List (String × String)) : FileUsage :=
  ⟨file, Bindings.empty.bindAll pairs, (pairs.map (·.2)).eraseDups, [], []⟩

theorem eraseDups_concat (names : List String) (name : String) :
    (names ++ [name]).eraseDups =
      if name ∈ names then names.eraseDups else names.eraseDups ++ [name] := by
  rw [List.eraseDups_append]
  by_cases h : name ∈ names
  · simp [List.removeAll, h]
  · rw [if_neg h]
    congr 1
    simp [List.removeAll, h, List.eraseDups_cons]

theorem declaredUsage_concat (file : Path) (pairs : List (String × String))
    (pair : String × String) :
    declaredUsage file (pairs ++ [pair]) =
      ((declaredUsage file pairs).addNamespace pair.2).bind pair.1 pair.2 := by
  unfold declaredUsage FileUsage.addNamespace FileUsage.bind
  rw [Bindings.bindAll_concat, List.map_append, List.map_singleton, eraseDups_concat]
  simp only [List.mem_eraseDups]
  split <;> rfl

theorem foldl_declare (file : Path) :
    lines.foldl declare (FileUsage.empty file) = declaredUsage file (declarations lines) := by
  -- from the back, as the last declaration of an identifier counts
  induction lines using List.reverseRecOn with
  | nil => rfl
  | append_singleton lines line ih =>
    have hconcat : declarations (lines ++ [line]) =
        declarations lines ++ line.declared?.toList := by
      cases hline : line.declared? <;> simp [declarations, hline]
    rw [List.foldl_append, ih, hconcat]
    cases hline : line.declared? with
    | none => simp [declare, hline]
    | some pair => simp [declare, hline, declaredUsage_concat]

/-- The hook itself is never declared. -/
theorem lastNamespace?_hook :
    lastNamespace? (declarations lines) (String.ofList useTranslations) = none := by
  have hnone : (declarations lines).filter (·.1 = String.ofList useTranslations) = [] := by
    refine List.filter_eq_nil_iff.2 fun pair hpair => ?_
    obtain ⟨line, -, hline⟩ := List.mem_filterMap.1 hpair
    cases line with
    | declaration identifier nspace =>
      cases hline
      have hne : identifier.text ≠ String.ofList useTranslations := by
        intro h
        have hhook := identifier.not_hook
        rw [h, String.toList_ofList] at hhook
        exact hhook List.suffix_rfl
      simpa using hne
    | lookup identifier key => cases hline
  rw [lastNamespace?, hnone]
  rfl

theorem Name.isPlausibleKey (name : Name) : Source.isPlausibleKey name.text.toList = true := by
  have hslash : '/' ∉ name.text.toList := name.not_mem (by decide)
  simp [Source.isPlausibleKey, name.toList_ne_nil, hslash]

/-- The keys that the lookups of a source add, given what its identifiers stand for. -/
theorem foldl_lookUp (declared : List (String × String))
    (hhook : lastNamespace? declared (String.ofList useTranslations) = none)
    (hbindings : ∀ identifier,
      u.bindings.namespaceOf? identifier = lastNamespace? declared identifier) :
    lines.foldl lookUp u = u.addKeys (lines.filterMap (Line.key? declared)) := by
  induction lines generalizing u with
  | nil => simp [FileUsage.addKeys]
  | cons line lines ih =>
    cases line with
    | declaration identifier nspace =>
      have hstep : lookUp u (.declaration identifier nspace) = u := by
        simp [lookUp, addLiteral, Line.callee, hbindings, hhook]
      rw [List.foldl_cons, hstep, ih u hbindings]
      rfl
    | lookup identifier key =>
      cases hns : lastNamespace? declared identifier.text with
      | none =>
        have hstep : lookUp u (.lookup identifier key) = u := by
          simp [lookUp, addLiteral, Line.callee, hbindings, hns]
        rw [List.foldl_cons, hstep, ih u hbindings]
        simp [Line.key?, hns]
      | some nspace =>
        have hstep : lookUp u (.lookup identifier key) = u.addKey (fullKey nspace key.text) := by
          simp [lookUp, addLiteral, Line.callee, Line.argument, hbindings, hns,
            key.isPlausibleKey]
        rw [List.foldl_cons, hstep, ih (u.addKey (fullKey nspace key.text)) hbindings]
        simp [Line.key?, hns, FileUsage.addKey, FileUsage.addKeys]

/-- A source of declarations and lookups reads back: the bindings and namespaces are those of
its declarations in order, the keys those of its lookups in order, wherever in the source
their identifiers are declared, and nothing is noted. -/
theorem scanText_sourceText (rules : ScanRules) (file : Path) (lines : List Line) :
    scanText rules file (sourceText lines) =
      ⟨file, Bindings.empty.bindAll (declarations lines),
        ((declarations lines).map (·.2)).eraseDups,
        lines.filterMap (Line.key? (declarations lines)), []⟩ := by
  -- the literals are looked up when all declarations have been seen
  have hbindings (identifier : String) :
      (declaredUsage file (declarations lines)).bindings.namespaceOf? identifier =
        lastNamespace? (declarations lines) identifier :=
    Bindings.namespaceOf?_bindAll (declarations lines) identifier
  simp only [scanText, Pass.all, List.foldl_cons, List.foldl_nil, Pass.finder]
  rw [namespaceCalls_sourceText, hookCalls_sourceText, foldl_declare, literalKeys_sourceText,
    foldl_lookUp lines _ _ (lastNamespace?_hook lines) hbindings, templateKeys_sourceText,
    propertyKeys_sourceText, componentKeys_of_not_mem _ _ _ (angle_not_mem_sourceText lines)]
  simp [declaredUsage, FileUsage.addKeys]

example :
    let t : Identifier := ⟨"t", by decide, List.all_eq_true.1 (by decide), by decide, by decide⟩
    let home : Name := ⟨"home", by decide, List.all_eq_true.1 (by decide)⟩
    let title : Name := ⟨"title", by decide, List.all_eq_true.1 (by decide)⟩
    let source := sourceText [.lookup t title, .declaration t home]
    source = "t(\"title\");\nconst t = useTranslations(\"home\");" ∧
      scanText ⟨[], [], [], ""⟩ ⟨"a.ts"⟩ source =
        ⟨⟨"a.ts"⟩, ⟨[("t", "home")], by decide⟩, ["home"], ["home.title"], []⟩ := by
  decide +kernel

end CatalogAudit.Scan
