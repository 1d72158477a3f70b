/-
  CatalogAudit.Proofs.Catalog.Containers — what the entries of a catalog have to do with
  its leaves.

  A list of members is empty, or starts with a leaf, or starts with a container
  (`Members.induction`). Besides that no object has a key twice, two things may hold of a
  catalog at all depths:
  - `hasPlainKeys`: no key of an entry is empty or has a dot in it;
  - `isCompact`: no entry is an empty container.

  With distinct keys no leaf lies at or below another one (`pairwise_leaves`). In a compact
  catalog every container has a leaf (`exists_mem_leaves`).
-/

import CatalogAudit.Catalog.Entries

namespace CatalogAudit

def Json.isContainer : Json → Bool
  | .obj _ => true
  | _ => false

theorem Json.exists_obj_of_isContainer {v : Json} (hv : v.isContainer = true) :
    ∃ child, v = .obj child := by
  cases v with
  | obj child => exact ⟨child, rfl⟩
  | _ => cases hv

/-- Induction on the members of a container and on those of the containers in it. -/
@[elab_as_elim]
theorem Members.induction {motive : Members → Prop} (nil : motive [])
    (leaf : ∀ key v ms, Json.isContainer v = false → motive ms → motive ((key, v) :: ms))
    (container : ∀ key child ms, motive child → motive ms → motive ((key, .obj child) :: ms)) :
    ∀ ms, motive ms
  | [] => nil
  | (key, .obj child) :: ms =>
    container key child ms (induction nil leaf container child) (induction nil leaf container ms)
  | (key, .null) :: ms => leaf key _ ms rfl (induction nil leaf container ms)
  | (key, .bool _) :: ms => leaf key _ ms rfl (induction nil leaf container ms)
  | (key, .num _) :: ms => leaf key _ ms rfl (induction nil leaf container ms)
  | (key, .str _) :: ms => leaf key _ ms rfl (induction nil leaf container ms)
  | (key, .arr _) :: ms => leaf key _ ms rfl (induction nil leaf container ms)

/-! ## What holds of every entry -/

mutual

/-- Whether `q` holds of every entry below a value: of its key and of what stands there. -/
def Json.everyEntry (q : String → Json → Bool) : Json → Bool
  | .obj ms => Members.everyEntry q ms
  | _ => true
  termination_by structural v => v

def Members.everyEntry (q : String → Json → Bool) : Members → Bool
  | [] => true
  | m :: ms => memberEveryEntry q m && Members.everyEntry q ms
  termination_by structural ms => ms

def memberEveryEntry (q : String → Json → Bool) : String × Json → Bool
  | (key, v) => q key v && v.everyEntry q
  termination_by structural m => m

end

/-- A key that a dotted key can hold as one segment. -/
def isPlainKey (key : String) : Bool := key ≠ "" && !key.toList.contains '.'

def Json.isEmptyContainer : Json → Bool
  | .obj ms => ms.isEmpty
  | _ => false

namespace Members

def hasPlainKeys (ms : Members) : Bool := ms.everyEntry fun key _ => isPlainKey key

def isCompact (ms : Members) : Bool := ms.everyEntry fun _ v => !v.isEmptyContainer

@[simp] theorem everyEntry_cons {q : String → Json → Bool} {key : String} {v : Json}
    {ms : Members} :
    everyEntry q ((key, v) :: ms) = true ↔
      q key v = true ∧ v.everyEntry q = true ∧ ms.everyEntry q = true := by
  simp [everyEntry, memberEveryEntry, and_assoc]

/-! ## Leaves -/

@[simp] theorem leaves_nil : leaves [] = [] := rfl

theorem leaves_cons (key : String) (v : Json) (ms : Members) :
    leaves ((key, v) :: ms) = v.leaves.map (fun leaf => (key :: leaf.1, leaf.2)) ++ ms.leaves :=
  rfl

@[simp] theorem leaves_cons_obj (key : String) (child ms : Members) :
    leaves ((key, .obj child) :: ms) =
      child.leaves.map (fun leaf => (key :: leaf.1, leaf.2)) ++ ms.leaves := rfl

@[simp] theorem leaves_cons_leaf {key : String} {v : Json} {ms : Members}
    (hv : v.isContainer = false) : leaves ((key, v) :: ms) = ([key], v) :: ms.leaves := by
  cases v with
  | obj child => cases hv
  | _ => rfl

/-- The first key on the way to a leaf is a key of the root. -/
theorem exists_cons_of_mem_leaves {ms : Members} {leaf : List String × Json}
    (h : leaf ∈ ms.leaves) : ∃ key ∈ ms.names, ∃ rest, leaf.1 = key :: rest := by
  induction ms with
  | nil => simp at h
  | cons m ms ih =>
    obtain ⟨key, v⟩ := m
    rcases List.mem_append.1 (leaves_cons key v ms ▸ h) with h | h
    · obtain ⟨below, -, rfl⟩ := List.mem_map.1 h
      exact ⟨key, List.mem_cons_self, below.1, rfl⟩
    · obtain ⟨key, hk, rest, hr⟩ := ih h
      exact ⟨key, List.mem_cons_of_mem _ hk, rest, hr⟩

/-- A container that is not empty, in a compact catalog, has a leaf. -/
theorem exists_mem_leaves {ms : Members} (hc : ms.isCompact = true) (hne : ms ≠ []) :
    ∃ leaf, leaf ∈ ms.leaves := by
  induction ms using Members.induction with
  | nil => exact absurd rfl hne
  | leaf key v ms hv _ => exact ⟨([key], v), by simp [hv]⟩
  | container key child ms ih _ =>
    obtain ⟨hchild, hc, -⟩ := everyEntry_cons.1 hc
    obtain ⟨leaf, hl⟩ := ih hc (by simpa [Json.isEmptyContainer] using hchild)
    exact ⟨(key :: leaf.1, leaf.2), by simp [hl]⟩

/-- A path that starts with a key that the root does not have does not meet a leaf of it. -/
theorem not_prefix_of_not_mem {key : String} (rest : List String) {ms : Members}
    {leaf : List String × Json} (hk : key ∉ ms.names) (hl : leaf ∈ ms.leaves) :
    ¬ key :: rest <+: leaf.1 ∧ ¬ leaf.1 <+: key :: rest := by
  obtain ⟨k, hm, r, hr⟩ := exists_cons_of_mem_leaves hl
  have hne : k ≠ key := fun e => hk (e ▸ hm)
  simp [hr, hne, Ne.symm hne]

/-- No leaf lies at or below another one. -/
theorem pairwise_leaves {ms : Members} (hd : ms.hasDistinctKeys = true) :
    ms.leaves.Pairwise fun leaf other => ¬ leaf.1 <+: other.1 ∧ ¬ other.1 <+: leaf.1 := by
  induction ms using Members.induction with
  | nil => exact .nil
  | leaf key v ms hv ih =>
    obtain ⟨hk, -, hd⟩ := hasDistinctKeys_cons.1 hd
    rw [leaves_cons_leaf hv]
    exact List.pairwise_cons.2 ⟨fun other ho => not_prefix_of_not_mem [] hk ho, ih hd⟩
  | container key child ms ihc ih =>
    obtain ⟨hk, hdc, hd⟩ := hasDistinctKeys_cons.1 hd
    rw [leaves_cons_obj, List.pairwise_append]
    refine ⟨?_, ih hd, fun leaf hl other ho => ?_⟩
    · rw [List.pairwise_map]
      simpa only [List.cons_prefix_cons, true_and] using ihc hdc
    · obtain ⟨below, -, rfl⟩ := List.mem_map.1 hl
      exact not_prefix_of_not_mem below.1 hk ho

theorem eq_of_prefix_leaf {ms : Members} (hd : ms.hasDistinctKeys = true)
    {leaf other : List String × Json} (hl : leaf ∈ ms.leaves) (ho : other ∈ ms.leaves)
    (hp : other.1 <+: leaf.1) : other = leaf :=
  List.Pairwise.forall_of_forall_of_flip (R := fun a b => a.1 <+: b.1 → a = b) (fun _ _ _ => rfl)
    ((pairwise_leaves hd).imp fun h hp => absurd hp h.1)
    ((pairwise_leaves hd).imp fun h hp => absurd hp h.2) ho hl hp

/-- The leaves under the keys of the root that `q` keeps. -/
theorem leaves_filter_key (q : String → Bool) (ms : Members) :
    leaves (ms.filter fun m => q m.1) = ms.leaves.filter fun leaf => leaf.1.head?.any q := by
  induction ms with
  | nil => rfl
  | cons m ms ih =>
    obtain ⟨key, v⟩ := m
    rw [leaves_cons, List.filter_append, List.filter_map]
    cases hq : q key with
    | false =>
      rw [List.filter_cons_of_neg (by simp [hq]), ih]
      simp [Function.comp_def, hq]
    | true =>
      rw [List.filter_cons_of_pos (by simp [hq]), leaves_cons, ih]
      simp [Function.comp_def, hq, List.filter_eq_self.2]

end Members

end CatalogAudit
