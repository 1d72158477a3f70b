/-
  CatalogAudit.Proofs.Scan.WholeWords — calls are taken for lookups by whole words.

  Whatever a pass over lookups adds is found for calls of identifiers that are bound, and these
  calls stand in the text as whole words (`lookups_are_of_whole_words`). So an identifier that
  ends in a bound one is no lookup, though the shapes of lookups ask for no edge.
-/

import CatalogAudit.Proofs.Scan.PropertyKeys

namespace CatalogAudit.Scan

open Text Shape Source

/-! ## Calls of bound identifiers -/

/-- In a text stands a call of a whole word that is bound to a namespace. -/
def IsLookup {α : Type} (b : Bindings) (text : List Char) (c : Call α) (argument : List Char)
    (nspace : String) : Prop :=
  b.namespaceOf? c.identifier = some nspace ∧
    CallsAfter text c.front c.identifier.toList argument

def IsBound {α : Type} (b : Bindings) (c : Call α) : Bool := (b.namespaceOf? c.identifier).isSome

section
variable {α : Type} {b : Bindings}

theorem exists_isLookup {text argument : List Char} {c : Call α} (h : IsBound b c = true)
    (hcall : CallsAfter text c.front c.identifier.toList argument) :
    ∃ nspace, IsLookup b text c argument nspace := by
  obtain ⟨nspace, hnspace⟩ := Option.isSome_iff_exists.1 h
  exact ⟨nspace, hnspace, hcall⟩

theorem namespaceOf?_of_not_isBound {c : Call α} (h : IsBound b c = false) :
    b.namespaceOf? c.identifier = none :=
  Option.not_isSome_iff_eq_none.1 (by rw [← IsBound, h]; exact Bool.false_ne_true)

variable {c : Call String}

theorem literalFinding_of_bound {nspace : String} (h : b.namespaceOf? c.identifier = some nspace)
    (hkey : isPlausibleKey c.argument.toList = true) :
    literalFinding b c = ⟨[fullKey nspace c.argument], []⟩ := by
  simp [literalFinding, found, addLiteral, h, hkey, FileUsage.empty, FileUsage.addKey]

theorem literalFinding_of_not (h : (IsBound b c && isPlausibleKey c.argument.toList) = false) :
    literalFinding b c = ⟨[], []⟩ := by
  by_cases hkey : isPlausibleKey c.argument.toList = true
  · have hunbound : b.namespaceOf? c.identifier = none :=
      namespaceOf?_of_not_isBound (by simpa [hkey] using h)
    simp [literalFinding, found, addLiteral, hkey, hunbound, FileUsage.empty]
  · simp [literalFinding, found, addLiteral, hkey, FileUsage.empty]

theorem templateFinding_unbound {rules : ScanRules} (h : b.namespaceOf? c.identifier = none) :
    templateFinding rules b c = ⟨[], []⟩ := by
  simp [templateFinding, found, addTemplate, h, FileUsage.empty]

end

/-- What a pass over lookups adds is found for the listed calls of words that are bound, and each
of them stands in the text as a whole word. For a call with a literal it is the key, which holds
no slash, in the namespace of the word. The shapes of lookups, which ask for word characters
alone, find what shapes of whole words find. -/
theorem lookups_are_of_whole_words (rules : ScanRules) (source : Source) (u : FileUsage) :
    let text := source.text
    let b := u.bindings
    let literals := (literalCalls text).filter fun c =>
      IsBound b c && isPlausibleKey c.argument.toList
    let templates := (templateCalls text).filter (IsBound b)
    let properties := (propertyCalls text).filter (IsBound b)
    (literalKeys source u = u.add (.all (literals.map (literalFinding b))) ∧
      ∀ c ∈ literals, ∃ nspace written, IsLookup b text c written nspace ∧
        IsQuoted c.argument.toList written ∧ '/' ∉ c.argument.toList ∧
        literalFinding b c = ⟨[fullKey nspace c.argument], []⟩) ∧
    (templateKeys rules source u = u.add (.all (templates.map (templateFinding rules b))) ∧
      ∀ c ∈ templates, ∃ nspace,
        IsLookup b text c ('`' :: (c.argument.toList ++ ['`'])) nspace) ∧
    (propertyKeys rules source u = u.add (.all (properties.map (propertyFinding rules text b))) ∧
      ∀ c ∈ properties, ∃ nspace, IsLookup b text c c.argument.text.toList nspace) ∧
    literalCall.findAll text = (wholeCall quotedField).findAll text ∧
    templateCall.findAll text = (wholeCall templateField).findAll text ∧
    propertyCall.findAll text = (wholeCall wholeDotted).findAll text := by
  intro text b literals templates properties
  refine ⟨⟨?_, fun c hc => ?_⟩, ⟨?_, fun c hc => ?_⟩, ⟨?_, fun c hc => ?_⟩,
    findAll_wordCall _ text, findAll_wordCall _ text, findAll_dottedCall text⟩
  · rw [literalKeys_eq_add, all_map_filter fun c => literalFinding_of_not]
  · obtain ⟨hmem, hc⟩ := List.mem_filter.1 hc
    obtain ⟨hbound, hkey⟩ := Bool.and_eq_true_iff.1 hc
    obtain ⟨written, hquoted, hcall⟩ := callsAfter_of_mem_literalCalls hmem
    obtain ⟨nspace, hlookup⟩ := exists_isLookup hbound hcall
    exact ⟨nspace, written, hlookup, hquoted, (isPlausibleKey_iff.1 hkey).2,
      literalFinding_of_bound hlookup.1 hkey⟩
  · rw [templateKeys_eq_add, all_map_filter fun c hc =>
      templateFinding_unbound (namespaceOf?_of_not_isBound hc)]
  · obtain ⟨hmem, hbound⟩ := List.mem_filter.1 hc
    exact exists_isLookup hbound (callsAfter_of_mem_templateCalls hmem).2.2
  · rw [propertyKeys_eq_add, all_map_filter fun c hc =>
      propertyFinding_unbound (namespaceOf?_of_not_isBound hc)]
  · obtain ⟨hmem, hbound⟩ := List.mem_filter.1 hc
    exact exists_isLookup hbound (mem_propertyCalls_iff.1 hmem).2.2

/-- A call of a word and calls of others that end in it. -/
def endingsSource : Source :=
  ⟨"a.ts".toList, "t(\"x\"); format(\"y\"); set(\"z\")".toList⟩

/-- A record in which the word is bound. -/
def endingsUsage : FileUsage := (FileUsage.empty ⟨"a.ts"⟩).bind "t" "home"

theorem lookups_are_of_whole_words_endings :
    (literalCalls endingsSource.text).map (·.identifier) = ["t", "format", "set"] ∧
      (literalKeys endingsSource endingsUsage).keys = ["home.x"] ∧
      ∃ written, IsQuoted ['x'] written ∧ CallsAfter endingsSource.text [] ['t'] written := by
  obtain ⟨⟨hadd, hcalls⟩, -⟩ :=
    lookups_are_of_whole_words ⟨[], [], [], ""⟩ endingsSource endingsUsage
  have hbound : (literalCalls endingsSource.text).filter (fun c =>
      IsBound endingsUsage.bindings c && isPlausibleKey c.argument.toList) =
        [⟨[], "t", "x"⟩] := by
    decide +kernel
  rw [hbound] at hadd hcalls
  obtain ⟨nspace, written, ⟨-, hcall⟩, hquoted, -, -⟩ := hcalls _ List.mem_cons_self
  refine ⟨by decide +kernel, ?_, written, hquoted, hcall⟩
  rw [hadd]
  decide

end CatalogAudit.Scan
