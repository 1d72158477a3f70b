/-
  CatalogAudit.NameSet — sets of names.

  A set is the ascending list of its members, so equal sets are equal values
  (`ext_mem`) and are listed in one order.
-/

namespace CatalogAudit

structure NameSet where
  toList : List String
  sorted : toList.Pairwise (· < ·) := by simp
  deriving DecidableEq, Repr

namespace NameSet

/-- Puts `x` where it belongs in an ascending list, unless it is there. -/
def insertSorted (x : String) : List String → List String
  | [] => [x]
  | y :: ys => if x < y then x :: y :: ys else if x = y then y :: ys else y :: insertSorted x ys

theorem mem_insertSorted {x z : String} {ys : List String} :
    z ∈ insertSorted x ys ↔ z = x ∨ z ∈ ys := by
  induction ys with
  | nil => simp [insertSorted]
  | cons y ys ih =>
    rw [insertSorted]
    split
    · simp
    · split
      · next h => simp [h]
      · simp only [List.mem_cons, ih]
        exact or_left_comm

theorem sorted_insertSorted (x : String) {ys : List String} (h : ys.Pairwise (· < ·)) :
    (insertSorted x ys).Pairwise (· < ·) := by
  induction ys with
  | nil => simp [insertSorted]
  | cons y ys ih =>
    obtain ⟨hy, hys⟩ := List.pairwise_cons.1 h
    rw [insertSorted]
    split
    · next hlt =>
      refine List.pairwise_cons.2 ⟨fun z hz => ?_, h⟩
      rcases List.mem_cons.1 hz with rfl | hz
      · exact hlt
      · exact String.lt_trans hlt (hy z hz)
    · next hlt =>
      split
      · exact h
      · next hne =>
        refine List.pairwise_cons.2 ⟨fun z hz => ?_, ih hys⟩
        rcases mem_insertSorted.1 hz with rfl | hz
        · exact Std.lt_of_le_of_ne hlt (Ne.symm hne)
        · exact hy z hz

def empty : NameSet := ⟨[], by simp⟩

instance : EmptyCollection NameSet := ⟨empty⟩

def insert (s : NameSet) (x : String) : NameSet :=
  ⟨insertSorted x s.toList, sorted_insertSorted x s.sorted⟩

def insertAll (s : NameSet) (xs : List String) : NameSet := xs.foldl insert s

def ofList (xs : List String) : NameSet := insertAll ∅ xs

def has (s : NameSet) (x : String) : Bool := s.toList.contains x

def size (s : NameSet) : Nat := s.toList.length

instance : Membership String NameSet := ⟨fun s x => x ∈ s.toList⟩

/-! ## Membership -/

theorem mem_toList {s : NameSet} {x : String} : x ∈ s.toList ↔ x ∈ s := Iff.rfl

theorem has_iff {s : NameSet} {x : String} : s.has x = true ↔ x ∈ s := by
  simp [has, mem_toList]

@[simp] theorem not_mem_empty {x : String} : x ∉ (∅ : NameSet) := List.not_mem_nil

@[simp] theorem mem_insert {s : NameSet} {x y : String} : y ∈ s.insert x ↔ y = x ∨ y ∈ s :=
  mem_insertSorted

@[simp] theorem mem_insertAll {s : NameSet} {xs : List String} {y : String} :
    y ∈ s.insertAll xs ↔ y ∈ s ∨ y ∈ xs := by
  induction xs generalizing s with
  | nil => simp [insertAll]
  | cons x xs ih =>
    rw [insertAll, List.foldl_cons, ← insertAll, ih, mem_insert, List.mem_cons, or_left_comm,
      or_assoc, or_left_comm]

theorem mem_ofList {xs : List String} {y : String} : y ∈ ofList xs ↔ y ∈ xs := by
  simp [ofList]

/-- Two ascending lists with the same members are the same list. -/
theorem eq_of_sorted {xs ys : List String} (hx : xs.Pairwise (· < ·)) (hy : ys.Pairwise (· < ·))
    (h : ∀ z, z ∈ xs ↔ z ∈ ys) : xs = ys := by
  induction xs generalizing ys with
  | nil =>
    cases ys with
    | nil => rfl
    | cons y ys => simpa using (h y).2 (by simp)
  | cons x xs ih =>
    cases ys with
    | nil => simpa using (h x).1 (by simp)
    | cons y ys =>
      obtain ⟨hx', hxs⟩ := List.pairwise_cons.1 hx
      obtain ⟨hy', hys⟩ := List.pairwise_cons.1 hy
      have hxy : x = y := by
        rcases List.mem_cons.1 ((h x).1 (by simp)) with e | hm
        · exact e
        · rcases List.mem_cons.1 ((h y).2 (by simp)) with e | hm'
          · exact e.symm
          · exact absurd (String.lt_trans (hy' x hm) (hx' y hm')) (String.lt_irrefl y)
      subst hxy
      have hne : ∀ z ∈ xs, z ≠ x := fun z hz e => String.lt_irrefl x (e ▸ hx' z hz)
      have hne' : ∀ z ∈ ys, z ≠ x := fun z hz e => String.lt_irrefl x (e ▸ hy' z hz)
      rw [ih hxs hys fun z => ⟨fun hz => ?_, fun hz => ?_⟩]
      · exact (List.mem_cons.1 ((h z).1 (List.mem_cons_of_mem _ hz))).resolve_left (hne z hz)
      · exact (List.mem_cons.1 ((h z).2 (List.mem_cons_of_mem _ hz))).resolve_left (hne' z hz)

theorem ext_mem {s t : NameSet} (h : ∀ x, x ∈ s ↔ x ∈ t) : s = t := by
  cases s with
  | mk xs hx =>
    cases t with
    | mk ys hy =>
      have : xs = ys := eq_of_sorted hx hy h
      subst this
      rfl

end NameSet

end CatalogAudit
