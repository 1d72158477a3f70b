/-
  CatalogAudit.Proofs.Json.Records — values of known kinds and records read back.

  Strings, booleans, lists and maps are spelled for the readers of their kinds. A record is read
  field by field: where the value under a key fills in the field that the key gives, an object
  spells the record with just the fields that it gives filled in, whatever their order and
  whatever else stands among them (`Gives`, `spells_record`).
-/

import CatalogAudit.Proofs.Json.Skipping

namespace CatalogAudit

/-- A name that comes after all others goes to the end. -/
theorem Assoc.putSorted_of_lt {α : Type} {ps : Assoc String α} {name : String} {v : α}
    (h : ∀ x ∈ ps.names, x < name) : ps.putSorted name v = ps ++ [(name, v)] := by
  induction ps with
  | nil => rfl
  | cons p ps ih =>
    obtain ⟨hp, hps⟩ := List.forall_mem_cons.1 h
    have hbefore : ¬ name < p.1 := fun hlt => String.lt_irrefl _ (String.lt_trans hp hlt)
    have hother : name ≠ p.1 := fun heq => String.lt_irrefl _ (heq ▸ hp)
    rw [putSorted, if_neg hbefore, if_neg hother, ih hps, List.cons_append]

namespace Json

variable {α σ : Type} {layout : Layout} {outer : Nat}

/-! ## Kinds -/

theorem spells_typedString (s : String) : Spells typedString (stringText s) s := by
  refine spells_byFirst rfl (by decide) fun rest _ => ?_
  have hread := readString_escaped s rest
  simp [hread]

theorem spells_typedBool (b : Bool) : Spells typedBool (written layout outer (.bool b)) b := by
  cases b <;> exact spells_byFirst rfl (by decide) fun _ _ => rfl

theorem spells_typedList {item : Step α} {write : α → List Char} {items : List α}
    (h : ∀ a ∈ items, Spells item (write a) a) :
    Spells (typedList item) (bracketed layout outer '[' ']' (items.map write)) items := by
  refine spells_bracketed rfl (by decide) fun rest => ?_
  obtain ⟨cs, hcs, hread⟩ := readItems_bracketed h layout outer rest
  exact ⟨cs, hcs, hread⟩

/-- Each entry of a map comes after those that were put before it. -/
theorem readsMembers_putSorted {item : Step α} {write : α → List Char} {later : Assoc String α}
    (h : ∀ p ∈ later, Spells item (write p.2) p.2) {before m : NameMap α}
    (hm : m.entries = before.entries ++ later) :
    ReadsMembers
      (fun key m cs => do
        let ((), cs) ← readColon cs
        let (v, cs) ← item cs
        .ok (NameMap.put m key v, cs))
      layout (later.map fun p => (p.1, write p.2)) before m := by
  induction later generalizing before with
  | nil =>
    rw [List.append_nil] at hm
    obtain rfl : m = before := NameMap.ext hm
    exact .nil
  | cons p later ih =>
    obtain ⟨key, v⟩ := p
    obtain ⟨hv, hlater⟩ := List.forall_mem_cons.1 h
    have hlast : ∀ x ∈ before.entries.names, x < key := by
      have hsorted := m.sorted
      rw [hm, Assoc.names, List.map_append, List.pairwise_append] at hsorted
      exact fun x hx => hsorted.2.2 x hx key List.mem_cons_self
    have hput : (before.put key v).entries = before.entries ++ [(key, v)] :=
      Assoc.putSorted_of_lt hlast
    have hothers : m.entries = (before.put key v).entries ++ later := by
      rw [hm, hput, List.append_assoc, List.singleton_append]
    obtain ⟨blank, hblank, hcolon⟩ := readColon_colon layout
    refine .cons (fun rest hrest => ?_) (ih hlater hothers)
    simp [hcolon, hv.reads blank rest hblank hrest, bind, Except.bind]

theorem spells_typedMap {item : Step α} {write : α → List Char} {m : NameMap α}
    (h : ∀ p ∈ m.entries, Spells item (write p.2) p.2) :
    Spells (typedMap item)
      (bracketed layout outer '\x7b' '\x7d'
        ((m.entries.map fun p => (p.1, write p.2)).map (entryText layout))) m := by
  refine spells_bracketed rfl (by decide) fun rest => ?_
  have hall : m.entries = (∅ : NameMap α).entries ++ m.entries := rfl
  obtain ⟨cs, hcs, hread⟩ := readMembers_bracketed (readsMembers_putSorted h hall) outer rest
  exact ⟨cs, hcs, hread⟩

/-! ## Records -/

variable {shape : Shape σ} {filled : List String → σ} {entries : List (String × List Char)}

/-- The name of the field that a key gives, if it gives one. -/
def Shape.nameOf? (shape : Shape σ) (key : String) : Option String :=
  (shape.fields.find? (·.answersTo key)).map (·.name)

/-- The names of the fields that are given, in order. -/
def Shape.given (shape : Shape σ) (entries : List (String × List Char)) : List String :=
  entries.filterMap fun e => shape.nameOf? e.1

/-- Entries of which each one fills in a field that no other one gives, or is under another
key; `filled` is the record with those fields filled in. -/
structure Gives (shape : Shape σ) (filled : List String → σ)
    (entries : List (String × List Char)) : Prop where
  fields : ∀ e ∈ entries, ∀ f, shape.fields.find? (·.answersTo e.1) = some f →
    ∀ given, Spells (f.read (filled given)) e.2 (filled (f.name :: given))
  others : ∀ e ∈ entries, shape.nameOf? e.1 = none → IsValueText e.2
  once : (shape.given entries).Nodup

theorem Gives.tail {e : String × List Char} (h : Gives shape filled (e :: entries)) :
    Gives shape filled entries where
  fields e' he' := h.fields e' (List.mem_cons_of_mem e he')
  others e' he' := h.others e' (List.mem_cons_of_mem e he')
  once := by
    have honce := h.once
    rw [Shape.given, List.filterMap_cons] at honce
    split at honce
    · exact honce
    · exact (List.nodup_cons.1 honce).2

/-- A value under a key of no field is read over. -/
theorem readMember_other {key : String} {text rest : List Char}
    (hfield : shape.fields.find? (·.answersTo key) = none) (htext : IsValueText text)
    (state : List String × σ) (hrest : EndsNumber rest) :
    shape.readMember key state (layout.colon ++ (text ++ rest)) = .ok (state, rest) := by
  obtain ⟨blank, hblank, hcolon⟩ := readColon_colon layout
  simp [Shape.readMember, hfield, hcolon, skipValue_of_isValueText htext hblank hrest, bind,
    Except.bind]

/-- A value under a key of a field that has not been given is read into the record. -/
theorem readMember_field {key : String} {text rest : List Char} {f : Field σ} {r r' : σ}
    {given : List String} (hfield : shape.fields.find? (·.answersTo key) = some f)
    (hnew : f.name ∉ given) (htext : Spells (f.read r) text r') (hrest : EndsNumber rest) :
    shape.readMember key (given, r) (layout.colon ++ (text ++ rest)) =
      .ok ((f.name :: given, r'), rest) := by
  obtain ⟨blank, hblank, hcolon⟩ := readColon_colon layout
  simp [Shape.readMember, hfield, hnew, hcolon, htext.reads blank rest hblank hrest, bind,
    Except.bind]

theorem readsMembers_record (h : Gives shape filled entries) (layout : Layout)
    {before : List String} (hnew : ∀ name ∈ shape.given entries, name ∉ before) :
    ReadsMembers shape.readMember layout entries (before, filled before)
      ((shape.given entries).reverse ++ before,
        filled ((shape.given entries).reverse ++ before)) := by
  induction entries generalizing before with
  | nil => exact .nil
  | cons e entries ih =>
    obtain ⟨key, text⟩ := e
    have honce := h.once
    simp only [Shape.given, List.filterMap_cons, Shape.nameOf?] at hnew honce ⊢
    cases hfield : shape.fields.find? (·.answersTo key) with
    | none =>
      rw [hfield] at hnew
      have htext := h.others _ List.mem_cons_self (by rw [Shape.nameOf?, hfield]; rfl)
      exact .cons (fun rest hrest => readMember_other hfield htext _ hrest) (ih h.tail hnew)
    | some f =>
      rw [hfield] at hnew honce
      obtain ⟨hfirst, hothers⟩ := List.forall_mem_cons.1 hnew
      obtain ⟨hlater, -⟩ := List.nodup_cons.1 honce
      have htext := h.fields _ List.mem_cons_self f hfield before
      have hrest : ∀ name ∈ shape.given entries, name ∉ f.name :: before := by
        intro name hname hmem
        rcases List.mem_cons.1 hmem with rfl | hmem
        · exact hlater hname
        · exact hothers name hname hmem
      have hreads := ih h.tail hrest
      rw [← List.singleton_append, ← List.append_assoc, ← List.reverse_cons] at hreads
      exact .cons (fun rest hrest => readMember_field hfield hfirst htext hrest) hreads

theorem Shape.missing?_eq_none_iff {given : List String} :
    shape.missing? given = none ↔ ∀ f ∈ shape.fields, f.required = true → f.name ∈ given := by
  simp [Shape.missing?]

/-- An object that gives all required fields spells the record with those filled in that it
gives. -/
theorem spells_record (h : Gives shape filled entries) (hblank : filled [] = shape.blank)
    (hrequired : ∀ f ∈ shape.fields, f.required = true → f.name ∈ shape.given entries) :
    Spells shape.read (bracketed layout outer '\x7b' '\x7d' (entries.map (entryText layout)))
      (filled (shape.given entries).reverse) := by
  have hnew : ∀ name ∈ shape.given entries, name ∉ ([] : List String) :=
    fun _ _ => List.not_mem_nil
  have hmembers := readsMembers_record h layout hnew
  rw [List.append_nil, hblank] at hmembers
  have hmissing : shape.missing? (shape.given entries).reverse = none :=
    Shape.missing?_eq_none_iff.2 fun f hf hreq => List.mem_reverse.2 (hrequired f hf hreq)
  refine spells_bracketed rfl (by decide) fun rest => ?_
  obtain ⟨cs, hcs, hread⟩ := readMembers_bracketed hmembers outer rest
  refine ⟨cs, hcs, ?_⟩
  rw [if_pos rfl, Shape.readObject, hread]
  simp [hmissing, bind, Except.bind]

/-! ## Records that were written -/

/-- What was written for the member of its name fills in each field. -/
def FillsFrom (shape : Shape σ) (filled : List String → σ) (layout : Layout) (outer : Nat)
    (ms : Members) : Prop :=
  ∀ f ∈ shape.fields, ∃ v, ms.value? f.name = some v ∧
    ∀ given, Spells (f.read (filled given)) (written layout outer v) (filled (f.name :: given))

theorem FillsFrom.gives {ms : Members} (h : FillsFrom shape filled layout outer ms)
    (hfields : ∀ e ∈ entries, ∀ name, shape.nameOf? e.1 = some name →
      (ms.value? name).map (written layout outer) = some e.2)
    (hothers : ∀ e ∈ entries, shape.nameOf? e.1 = none → IsValueText e.2)
    (honce : (shape.given entries).Nodup) : Gives shape filled entries where
  fields e he f hf given := by
    obtain ⟨v, hv, hspells⟩ := h f (List.mem_of_find?_eq_some hf)
    have htext := hfields e he f.name (by rw [Shape.nameOf?, hf]; rfl)
    rw [hv, Option.map_some, Option.some.injEq] at htext
    exact htext ▸ hspells given
  others := hothers
  once := honce

end Json

end CatalogAudit
