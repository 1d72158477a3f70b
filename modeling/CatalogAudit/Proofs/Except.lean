/-
  CatalogAudit.Proofs.Except — how a computation that may fail came to its result.

  Where many are made, one for each of a list, the successes and the failures stand for the
  list in its order: each of it has given one or the other (`map_successesOf`,
  `map_failuresOf`). Those that fail do not count among the successes (`successesOf_filter`).
-/

namespace CatalogAudit

variable {ε δ α β : Type}

theorem bind_eq_ok {x : Except ε α} {f : α → Except ε β} {b : β} :
    x >>= f = .ok b ↔ ∃ a, x = .ok a ∧ f a = .ok b := by
  cases x with
  | error e => simp [bind, Except.bind]
  | ok a => simp [bind, Except.bind]

theorem map_eq_ok {x : Except ε α} {f : α → β} {b : β} :
    x.map f = .ok b ↔ ∃ a, x = .ok a ∧ f a = b := by
  cases x with
  | error e => simp [Except.map]
  | ok a => simp [Except.map]

theorem mapError_eq_ok {x : Except ε α} {f : ε → δ} {a : α} :
    x.mapError f = .ok a ↔ x = .ok a := by
  cases x with
  | error e => constructor <;> (intro h; cases h)
  | ok b => constructor <;> (intro h; cases h; rfl)

theorem mapError_eq_error {x : Except ε α} {f : ε → δ} {d : δ} :
    x.mapError f = .error d ↔ ∃ e, x = .error e ∧ f e = d := by
  cases x with
  | error e =>
    constructor
    · intro h
      exact ⟨e, rfl, Except.error.inj h⟩
    · intro h
      obtain ⟨_, he, rfl⟩ := h
      cases he
      rfl
  | ok a =>
    constructor
    · intro h
      cases h
    · intro h
      obtain ⟨_, ha, -⟩ := h
      cases ha

/-! ## One for each of a list -/

/-- What those that succeed give, in order. -/
def successesOf (f : α → Except ε β) (xs : List α) : List β :=
  xs.filterMap fun x =>
    match f x with
    | .ok b => some b
    | .error _ => none

/-- Why the others fail, in order. -/
def failuresOf (f : α → Except ε β) (xs : List α) : List ε :=
  xs.filterMap fun x =>
    match f x with
    | .ok _ => none
    | .error e => some e

section
variable {f : α → Except ε β} {xs : List α}

/-- The outcomes, gone through for the successes. -/
theorem filterMap_map_eq_successesOf {g : Except ε β → Option β} (hok : ∀ b, g (.ok b) = some b)
    (herror : ∀ e, g (.error e) = none) : (xs.map f).filterMap g = successesOf f xs := by
  rw [List.filterMap_map, successesOf]
  congr
  funext x
  cases hx : f x with
  | ok b => simp [hx, hok]
  | error e => simp [hx, herror]

theorem filterMap_map_eq_failuresOf {g : Except ε β → Option ε} (hok : ∀ b, g (.ok b) = none)
    (herror : ∀ e, g (.error e) = some e) : (xs.map f).filterMap g = failuresOf f xs := by
  rw [List.filterMap_map, failuresOf]
  congr
  funext x
  cases hx : f x with
  | ok b => simp [hx, hok]
  | error e => simp [hx, herror]

theorem mem_successesOf {b : β} : b ∈ successesOf f xs ↔ ∃ x ∈ xs, f x = .ok b := by
  simp only [successesOf, List.mem_filterMap]
  refine exists_congr fun x => and_congr_right fun _ => ?_
  cases f x <;> simp

theorem mem_failuresOf {e : ε} : e ∈ failuresOf f xs ↔ ∃ x ∈ xs, f x = .error e := by
  simp only [failuresOf, List.mem_filterMap]
  refine exists_congr fun x => and_congr_right fun _ => ?_
  cases f x <;> simp

/-- Where a result tells what it is the result of, the successes tell which succeed. -/
theorem map_successesOf {origin : β → α} (h : ∀ x b, f x = .ok b → origin b = x) :
    (successesOf f xs).map origin = xs.filter fun x => (f x).isOk := by
  induction xs with
  | nil => rfl
  | cons x xs ih =>
    cases hx : f x with
    | ok b => simpa [successesOf, hx, Except.isOk, Except.toBool, h x b hx] using ih
    | error e => simpa [successesOf, hx, Except.isOk, Except.toBool] using ih

theorem map_failuresOf {origin : ε → α} (h : ∀ x e, f x = .error e → origin e = x) :
    (failuresOf f xs).map origin = xs.filter fun x => !(f x).isOk := by
  induction xs with
  | nil => rfl
  | cons x xs ih =>
    cases hx : f x with
    | ok b => simpa [failuresOf, hx, Except.isOk, Except.toBool] using ih
    | error e => simpa [failuresOf, hx, Except.isOk, Except.toBool, h x e hx] using ih

/-- What fails adds nothing to the successes. -/
theorem successesOf_filter : successesOf f (xs.filter fun x => (f x).isOk) = successesOf f xs := by
  induction xs with
  | nil => rfl
  | cons x xs ih =>
    cases hx : f x with
    | ok b => simpa [successesOf, hx, Except.isOk, Except.toBool] using ih
    | error e => simpa [successesOf, hx, Except.isOk, Except.toBool] using ih

theorem failuresOf_filter : failuresOf f (xs.filter fun x => (f x).isOk) = [] := by
  refine List.eq_nil_iff_forall_not_mem.2 fun e he => ?_
  obtain ⟨x, hx, hfails⟩ := mem_failuresOf.1 he
  have hok := (List.mem_filter.1 hx).2
  rw [hfails] at hok
  cases hok

theorem successesOf_eq_nil_iff : successesOf f xs = [] ↔ ∀ x ∈ xs, (f x).isOk = false := by
  simp only [successesOf, List.filterMap_eq_nil_iff]
  refine forall₂_congr fun x _ => ?_
  cases f x <;> simp [Except.isOk, Except.toBool]

end

end CatalogAudit
