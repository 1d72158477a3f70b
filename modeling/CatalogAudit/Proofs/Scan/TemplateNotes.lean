/-
  CatalogAudit.Proofs.Scan.TemplateNotes — which calls with a template are noted.

  A note is due for a call whose identifier is bound and whose template holds an inserted
  value, unless what comes before that value looks like a path (`IsDue`). One case goes without
  a note: a template that starts with dots and nothing else before the value (`IsDotted`), which
  names no segment of a key and yet does not start with the value. So the notes are those of the
  calls that are due and not dotted, in the order of the text, and the dotted ones make up the
  rest (`open_templates_are_noted`, `dotted_template_goes_unnoted`).
-/

import CatalogAudit.Proofs.Scan.Lookups
import CatalogAudit.Proofs.Text.Splitting
import Mathlib.Data.List.Forall2

namespace CatalogAudit.Scan

open Text Shape Source

/-! ## Calls for which a note is due -/

/-- A call whose template holds an inserted value, with no path before it, and whose identifier
is bound. -/
def IsDue (b : Bindings) (c : Call String) : Prop :=
  (b.namespaceOf? c.identifier).isSome = true ∧ insertion <:+: c.argument.toList ∧
    '/' ∉ staticPart c.argument.toList

/-- A call whose template has dots before its first inserted value, and nothing else. -/
def IsDotted (c : Call String) : Prop :=
  staticPart c.argument.toList ≠ [] ∧ ∀ x ∈ staticPart c.argument.toList, x = '.'

instance (b : Bindings) (c : Call String) : Decidable (IsDue b c) :=
  inferInstanceAs (Decidable (_ ∧ _ ∧ _))

instance (c : Call String) : Decidable (IsDotted c) :=
  decidable_of_iff (staticPart c.argument.toList ≠ [] ∧
    (staticPart c.argument.toList).all (· == '.') = true) (by simp [IsDotted])

/-- The note of a call holds its template, in the namespace of its identifier. -/
def IsNoteOf (b : Bindings) (c : Call String) (note : Note) : Prop :=
  ∃ nspace, b.namespaceOf? c.identifier = some nspace ∧
    note.expression = fullKey nspace c.argument

section
variable (rules : ScanRules) (b : Bindings) (c : Call String)

theorem notes_addStaticTemplate (u : FileUsage) (nspace template first : String)
    (more : List String) :
    (addStaticTemplate rules u nspace template first more).notes =
      u.notes ++
        if isDynamic template.toList then [⟨.template, fullKey nspace template⟩] else [] := by
  unfold addStaticTemplate
  dsimp only
  split <;> split <;> simp [FileUsage.addKey, FileUsage.addKeys, FileUsage.addNote]

theorem notes_addOpenTemplate (u : FileUsage) (nspace template : String) :
    ∃ kind, (addOpenTemplate rules u nspace template).notes =
      u.notes ++ [⟨kind, fullKey nspace template⟩] := by
  unfold addOpenTemplate
  dsimp only
  split
  · exact ⟨.template, rfl⟩
  · exact ⟨.unresolved, rfl⟩

/-- The segments of what comes before the first inserted value. -/
theorem segments_eq_nil_iff {fixed : List Char} :
    ((splitOn '.' fixed).filter (!·.isEmpty)).map String.ofList = [] ↔ ∀ x ∈ fixed, x = '.' := by
  rw [List.map_eq_nil_iff, filter_splitOn_eq_nil_iff]

/-- A call is noted once when a note is due and the template does not start with dots alone, and
otherwise not at all. -/
theorem notes_templateFinding :
    (IsDue b c ∧ ¬ IsDotted c → ∃ note, (templateFinding rules b c).notes = [note] ∧
      IsNoteOf b c note) ∧
    (¬ (IsDue b c ∧ ¬ IsDotted c) → (templateFinding rules b c).notes = []) := by
  have hdynamicIff : isDynamic c.argument.toList = true ↔ insertion <:+: c.argument.toList :=
    occurs_iff
  simp only [templateFinding, found, addTemplate]
  cases hnspace : b.namespaceOf? c.identifier with
  | none =>
    have hdue : ¬ IsDue b c := fun h => by simpa [hnspace] using h.1
    exact ⟨fun h => absurd h.1 hdue, fun _ => rfl⟩
  | some nspace =>
    have hbound : (b.namespaceOf? c.identifier).isSome = true := by rw [hnspace]; rfl
    dsimp only
    split
    · next hplausible =>
      obtain ⟨hne, hpath⟩ := isPlausibleKey_iff.1 hplausible
      split
      · next first more hsegments =>
        have hdots : ¬ IsDotted c := fun h => by
          rw [segments_eq_nil_iff.2 h.2] at hsegments
          cases hsegments
        rw [notes_addStaticTemplate]
        split
        · next hdynamic =>
          have hdue : IsDue b c := ⟨hbound, hdynamicIff.1 hdynamic, hpath⟩
          exact ⟨fun _ => ⟨_, rfl, nspace, hnspace, rfl⟩, fun h => absurd ⟨hdue, hdots⟩ h⟩
        · next hdynamic =>
          have hdue : ¬ IsDue b c := fun h => hdynamic (hdynamicIff.2 h.2.1)
          exact ⟨fun h => absurd h.1 hdue, fun _ => rfl⟩
      · next hsegments =>
        have hdots : IsDotted c := ⟨hne, segments_eq_nil_iff.1 hsegments⟩
        exact ⟨fun h => absurd hdots h.2, fun _ => rfl⟩
    · next himplausible =>
      split
      · next hopen =>
        rw [Bool.and_eq_true, List.isEmpty_iff] at hopen
        obtain ⟨hdynamic, hempty⟩ := hopen
        have hdue : IsDue b c := ⟨hbound, hdynamicIff.1 hdynamic, by simp [hempty]⟩
        have hdots : ¬ IsDotted c := fun h => h.1 hempty
        obtain ⟨kind, hnotes⟩ := notes_addOpenTemplate rules
          { FileUsage.empty ⟨""⟩ with bindings := b } nspace c.argument
        exact ⟨fun _ => ⟨_, hnotes, nspace, hnspace, rfl⟩, fun h => absurd ⟨hdue, hdots⟩ h⟩
      · next hclosed =>
        have hdue : ¬ IsDue b c := by
          rintro ⟨-, hdynamic, hpath⟩
          have hempty : staticPart c.argument.toList = [] := by
            by_contra hne
            exact himplausible (isPlausibleKey_iff.2 ⟨hne, hpath⟩)
          exact hclosed (by simp [hdynamicIff.2 hdynamic, hempty])
        exact ⟨fun h => absurd h.1 hdue, fun _ => rfl⟩

end

/-! ## The notes of a text -/

/-- One entry for each one of a kind, and none for the others. -/
theorem forall₂_flatMap {α β : Type} {p : α → Prop} [DecidablePred p] {r : α → β → Prop}
    {f : α → List β} (hkind : ∀ a, p a → ∃ b, f a = [b] ∧ r a b) (hother : ∀ a, ¬ p a → f a = [])
    (as : List α) : List.Forall₂ r (as.filter p) (as.flatMap f) := by
  induction as with
  | nil => exact .nil
  | cons a as ih =>
    by_cases ha : p a
    · obtain ⟨b, hb, hr⟩ := hkind a ha
      rw [List.filter_cons_of_pos (by simpa using ha), List.flatMap_cons, hb]
      exact .cons hr ih
    · rw [List.filter_cons_of_neg (by simpa using ha), List.flatMap_cons, hother a ha]
      exact ih

/-- The notes that are added are those of the calls for which one is due, in the order of the
text, save for the calls whose template starts with dots alone; these make up the rest. -/
theorem open_templates_are_noted (rules : ScanRules) (source : Source) (u : FileUsage) :
    let calls := templateCalls source.text
    (∀ c ∈ calls,
      CallsAfter source.text c.front c.identifier.toList ('`' :: (c.argument.toList ++ ['`']))) ∧
    ∃ added, (templateKeys rules source u).notes = u.notes ++ added ∧
      List.Forall₂ (IsNoteOf u.bindings)
        (calls.filter fun c => IsDue u.bindings c ∧ ¬ IsDotted c) added ∧
      added.length + calls.countP (fun c => IsDue u.bindings c ∧ IsDotted c) =
        calls.countP fun c => IsDue u.bindings c := by
  intro calls
  let notes : Call String → List Note := fun c => (templateFinding rules u.bindings c).notes
  have hnotes : List.Forall₂ (IsNoteOf u.bindings)
      (calls.filter fun c => IsDue u.bindings c ∧ ¬ IsDotted c) (calls.flatMap notes) :=
    forall₂_flatMap (fun c => (notes_templateFinding rules u.bindings c).1)
      (fun c => (notes_templateFinding rules u.bindings c).2) calls
  refine ⟨fun c hc => (callsAfter_of_mem_templateCalls hc).2.2, calls.flatMap notes, ?_, hnotes, ?_⟩
  · rw [templateKeys_eq_add]
    simp [FileUsage.add, Finding.all, List.flatMap_map, calls, notes]
  · -- the calls that are due are those without dots and those with
    rw [← hnotes.length_eq, ← List.countP_eq_length_filter,
      List.countP_eq_countP_filter_add calls (fun c => IsDue u.bindings c) fun c => ¬ IsDotted c]
    simp [List.countP_filter]

/-- Two calls for which a note is due; the second has a dot before its value. -/
def dottedSource : Source :=
  ⟨"a.ts".toList, "t(`card.$\x7bid\x7d`); t(`.$\x7bid\x7d`);".toList⟩

/-- A record in which the identifier of the two calls is bound. -/
def homeUsage : FileUsage := (FileUsage.empty ⟨"a.ts"⟩).bind "t" "home"

theorem open_templates_are_noted_card :
    CallsAfter dottedSource.text [] ['t'] "`card.$\x7bid\x7d`".toList ∧
      ∃ added, (templateKeys ⟨[], [], [], ""⟩ dottedSource homeUsage).notes = added ∧
        added.map (·.expression) = ["home.card.$\x7bid\x7d"] ∧ added.length + 1 = 2 := by
  obtain ⟨htext, added, hnotes, hcalls, hcount⟩ :=
    open_templates_are_noted ⟨[], [], [], ""⟩ dottedSource homeUsage
  have hnoted : (templateCalls dottedSource.text).filter
      (fun c => IsDue homeUsage.bindings c ∧ ¬ IsDotted c) = [⟨[], "t", "card.$\x7bid\x7d"⟩] := by
    decide +kernel
  have hdotted : (templateCalls dottedSource.text).countP
      (fun c => IsDue homeUsage.bindings c ∧ IsDotted c) = 1 := by decide +kernel
  have hdue : (templateCalls dottedSource.text).countP
      (fun c => IsDue homeUsage.bindings c) = 2 := by decide +kernel
  rw [hnoted] at hcalls
  rw [hdotted, hdue] at hcount
  have hfirst : ⟨[], "t", "card.$\x7bid\x7d"⟩ ∈ templateCalls dottedSource.text :=
    List.mem_of_mem_filter (hnoted ▸ List.mem_singleton_self _)
  refine ⟨by simpa using htext _ hfirst, added, hnotes, ?_, hcount⟩
  obtain ⟨note, rest, ⟨nspace, hnspace, hexpression⟩, hrest, rfl⟩ :=
    List.forall₂_cons_left_iff.1 hcalls
  cases hrest
  obtain rfl : "home" = nspace := by
    have hhome : homeUsage.bindings.namespaceOf? "t" = some "home" := by decide
    simpa [hhome] using hnspace
  rw [List.map_cons, List.map_nil, hexpression]
  rfl

/-- A template that holds a value may go unnoted. -/
theorem dotted_template_goes_unnoted :
    ¬ ∀ (rules : ScanRules) (source : Source) (u : FileUsage),
      (templateKeys rules source u).notes.length =
        u.notes.length + (templateCalls source.text).countP fun c => IsDue u.bindings c := by
  intro h
  have hcount := h ⟨[], [], [], ""⟩ dottedSource homeUsage
  revert hcount
  decide +kernel

end CatalogAudit.Scan
