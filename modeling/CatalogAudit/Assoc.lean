/-
  CatalogAudit.Assoc — lists of values under names.

  Two ways to keep such a list free of a name that comes twice: in the order in which the
  names first came (`put`, `nodup_names_put`), or in ascending order of the names
  (`putSorted`, `sorted_putSorted`), which a `NameMap` carries along. A `put` is seen under
  its own name and under no other (`value?_put_self`, `value?_put_of_ne`).
-/

namespace CatalogAudit

/-- Values under names, in order. -/
abbrev Assoc (κ α : Type) := List (κ × α)

namespace Assoc

variable {κ α : Type}

def names (ps : Assoc κ α) : List κ := ps.map (·.1)

variable [DecidableEq κ]

def value? (ps : Assoc κ α) (name : κ) : Option α := (ps.find? (·.1 = name)).map (·.2)

def has (ps : Assoc κ α) (name : κ) : Bool := ps.any (·.1 = name)

def without (ps : Assoc κ α) (name : κ) : Assoc κ α := ps.filter (·.1 ≠ name)

theorem has_iff_mem_names {ps : Assoc κ α} {name : κ} : ps.has name = true ↔ name ∈ ps.names := by
  simp [has, names]

/-- A name is there when it has a value. -/
theorem has_eq_isSome_value? (ps : Assoc κ α) (name : κ) :
    ps.has name = (ps.value? name).isSome := by
  rw [value?, Option.isSome_map, has, List.isSome_find?]

theorem value?_cons (p : κ × α) (ps : Assoc κ α) (name : κ) :
    value? (p :: ps) name = if p.1 = name then some p.2 else ps.value? name := by
  by_cases h : p.1 = name <;> simp [value?, h]

theorem mem_of_value? {ps : Assoc κ α} {name : κ} {v : α} (h : ps.value? name = some v) :
    (name, v) ∈ ps := by
  obtain ⟨p, hp, rfl⟩ := Option.map_eq_some_iff.1 h
  have hname : p.1 = name := by simpa using List.find?_some hp
  exact hname ▸ List.mem_of_find?_eq_some hp

/-- Where no name comes twice, a name has the one value that stands beside it. -/
theorem value?_eq_some_iff {ps : Assoc κ α} (hd : ps.names.Nodup) {name : κ} {v : α} :
    ps.value? name = some v ↔ (name, v) ∈ ps := by
  induction ps with
  | nil => simp [value?]
  | cons p ps ih =>
    obtain ⟨key, w⟩ := p
    obtain ⟨hkey, hd⟩ := List.nodup_cons.1 hd
    rw [value?_cons]
    by_cases h : key = name
    · subst h
      have hlater : (key, v) ∉ ps := fun hm => hkey (List.mem_map.2 ⟨(key, v), hm, rfl⟩)
      simp [hlater, eq_comm]
    · simp [h, Ne.symm h, ih hd]

/-- Where all that stands beside a name is one value, or nothing stands there, that is its value. -/
theorem value?_eq_of_mem_iff {ps : Assoc κ α} {name : κ} {x : Option α}
    (h : ∀ v, (name, v) ∈ ps ↔ x = some v) : ps.value? name = x := by
  cases hv : ps.value? name with
  | some v => exact ((h v).1 (mem_of_value? hv)).symm
  | none =>
    cases x with
    | none => rfl
    | some v =>
      have hname : name ∈ ps.names := List.mem_map_of_mem ((h v).2 rfl)
      rw [← has_iff_mem_names, has_eq_isSome_value?, hv] at hname
      cases hname

theorem has_cons (p : κ × α) (ps : Assoc κ α) (name : κ) :
    has (p :: ps) name = (decide (p.1 = name) || ps.has name) := List.any_cons

theorem without_cons (p : κ × α) (ps : Assoc κ α) (name : κ) :
    without (p :: ps) name = if p.1 = name then ps.without name else p :: ps.without name := by
  by_cases h : p.1 = name <;> simp [without, h]

theorem without_of_not_mem {ps : Assoc κ α} {name : κ} (h : name ∉ ps.names) :
    ps.without name = ps := by
  refine List.filter_eq_self.2 fun p hp => ?_
  have : p.1 ≠ name := fun e => h (e ▸ List.mem_map_of_mem hp)
  simpa using this

theorem names_without (ps : Assoc κ α) (name : κ) :
    (ps.without name).names = ps.names.filter (· ≠ name) := by
  simp [names, without, List.filter_map, Function.comp_def]

/-! ## In the order of arrival -/

/-- Gives `name` the value `v`, in its place, or at the end when it is new. -/
def put (ps : Assoc κ α) (name : κ) (v : α) : Assoc κ α :=
  match ps with
  | [] => [(name, v)]
  | p :: ps => if p.1 = name then (name, v) :: ps else p :: put ps name v

theorem names_put (ps : Assoc κ α) (name : κ) (v : α) :
    (ps.put name v).names = if name ∈ ps.names then ps.names else ps.names ++ [name] := by
  induction ps with
  | nil => simp [put, names]
  | cons p ps ih =>
    rw [put]
    split
    · next h => simp [names, h]
    · next h =>
      simp only [names, List.map_cons, List.mem_cons, Ne.symm h, false_or] at ih ⊢
      rw [ih]
      split <;> simp_all

theorem nodup_names_put {ps : Assoc κ α} (name : κ) (v : α) (h : ps.names.Nodup) :
    (ps.put name v).names.Nodup := by
  rw [names_put]
  split
  · exact h
  · next hn =>
    rw [List.nodup_append]
    exact ⟨h, by simp, fun x hx y hy e => hn (List.mem_singleton.1 hy ▸ e ▸ hx)⟩

theorem mem_put {ps : Assoc κ α} {name : κ} {v : α} {p : κ × α} (h : p ∈ ps.put name v) :
    p = (name, v) ∨ p ∈ ps := by
  induction ps with
  | nil => exact .inl (List.mem_singleton.1 h)
  | cons q ps ih =>
    rw [put] at h
    split at h
    · rcases List.mem_cons.1 h with h | h
      · exact .inl h
      · exact .inr (List.mem_cons_of_mem _ h)
    · rcases List.mem_cons.1 h with h | h
      · exact .inr (h ▸ List.mem_cons_self)
      · exact (ih h).imp id (List.mem_cons_of_mem _)

/-- A new name comes last. -/
theorem put_of_not_mem {ps : Assoc κ α} {name : κ} (h : name ∉ ps.names) (v : α) :
    ps.put name v = ps ++ [(name, v)] := by
  induction ps with
  | nil => rfl
  | cons p ps ih =>
    have hp : p.1 ≠ name := fun e => h (e ▸ List.mem_cons_self)
    rw [put, if_neg hp, ih fun hn => h (List.mem_cons_of_mem _ hn), List.cons_append]

theorem value?_put_self (ps : Assoc κ α) (name : κ) (v : α) :
    (ps.put name v).value? name = some v := by
  induction ps with
  | nil => simp [put, value?]
  | cons p ps ih =>
    rw [put]
    split
    · simp [value?]
    · next h => simpa [value?, List.find?_cons, h] using ih

theorem value?_put_of_ne {ps : Assoc κ α} {name other : κ} {v : α} (h : other ≠ name) :
    (ps.put name v).value? other = ps.value? other := by
  induction ps with
  | nil => simp [put, value?, Ne.symm h]
  | cons p ps ih =>
    rw [put]
    split
    · next hp => simp [value?, hp, Ne.symm h]
    · by_cases ho : p.1 = other
      · simp [value?, ho]
      · simpa [value?, List.find?_cons, ho] using ih

/-- A name that has the value already gets nothing new. -/
theorem put_of_value? {ps : Assoc κ α} {name : κ} {v : α} (h : ps.value? name = some v) :
    ps.put name v = ps := by
  induction ps with
  | nil => cases h
  | cons p ps ih =>
    obtain ⟨key, w⟩ := p
    rw [value?_cons] at h
    rw [put]
    by_cases hk : key = name
    · rw [if_pos hk, Option.some.injEq] at h
      rw [if_pos hk, ← hk, ← h]
    · rw [if_neg hk] at h
      rw [if_neg hk, ih h]

/-! ## In ascending order -/

/-- Gives `name` the value `v` in a list whose names ascend. -/
def putSorted (ps : Assoc String α) (name : String) (v : α) : Assoc String α :=
  match ps with
  | [] => [(name, v)]
  | p :: ps =>
    if name < p.1 then (name, v) :: p :: ps
    else if name = p.1 then (name, v) :: ps
    else p :: putSorted ps name v

theorem mem_names_putSorted {ps : Assoc String α} {name x : String} {v : α} :
    x ∈ (ps.putSorted name v).names ↔ x = name ∨ x ∈ ps.names := by
  induction ps with
  | nil => simp [putSorted, names]
  | cons p ps ih =>
    simp only [names] at ih
    rw [putSorted]
    split
    · simp [names]
    · split
      · next h => simp [names, h]
      · simp only [names, List.map_cons, List.mem_cons, ih]
        exact or_left_comm

theorem sorted_putSorted {ps : Assoc String α} (name : String) (v : α)
    (h : ps.names.Pairwise (· < ·)) : (ps.putSorted name v).names.Pairwise (· < ·) := by
  induction ps with
  | nil => simp [putSorted, names]
  | cons p ps ih =>
    have hp : ∀ x ∈ names ps, p.1 < x := (List.pairwise_cons.1 h).1
    have hps : (names ps).Pairwise (· < ·) := (List.pairwise_cons.1 h).2
    rw [putSorted]
    split
    · next hlt =>
      refine List.pairwise_cons.2 ⟨fun x hx => ?_, h⟩
      rcases List.mem_cons.1 hx with rfl | hx
      · exact hlt
      · exact String.lt_trans hlt (hp x hx)
    · next hlt =>
      split
      · next heq => exact List.pairwise_cons.2 ⟨heq ▸ hp, hps⟩
      · next hne =>
        refine List.pairwise_cons.2 ⟨fun x hx => ?_, ih hps⟩
        rcases mem_names_putSorted.1 hx with rfl | hx
        · exact Std.lt_of_le_of_ne hlt (Ne.symm hne)
        · exact hp x hx

end Assoc

/-- Values under ascending names. -/
@[ext]
structure NameMap (α : Type) where
  entries : Assoc String α
  sorted : entries.names.Pairwise (· < ·) := by simp [Assoc.names]
  deriving DecidableEq, Repr

namespace NameMap

variable {α : Type}

def empty : NameMap α := ⟨[], by simp [Assoc.names]⟩

instance : EmptyCollection (NameMap α) := ⟨empty⟩

/-- Gives `name` the value `v`, whether it had one or not. -/
def put (m : NameMap α) (name : String) (v : α) : NameMap α :=
  ⟨m.entries.putSorted name v, Assoc.sorted_putSorted name v m.sorted⟩

end NameMap

end CatalogAudit
