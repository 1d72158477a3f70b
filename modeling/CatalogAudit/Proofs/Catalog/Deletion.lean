/-
  CatalogAudit.Proofs.Catalog.Deletion — what deleting entries does to a catalog.

  `Deletes path ms left` says what one deletion does: `left` is `ms` without the entry at
  `path`. In a catalog with distinct keys `delete?` is such a deletion (`deletes_of_delete?`),
  and it takes place exactly when the path leads to an entry (`isSome_delete?`). What is true
  of one deletion is then an induction on `Deletes`: the entries that stay are those whose path
  does not start with `path`, in order (`entries_eq`), and so it is with the leaves
  (`leaves_eq`).

  Keys deleted one after the other leave the entries that none of them leads to or stands above
  (`entries_deleteEach`), in whatever order they come.
-/

import CatalogAudit.Proofs.Catalog.DistinctKeys
import CatalogAudit.Proofs.Catalog.DottedKey
import CatalogAudit.Proofs.Catalog.EntryList

namespace CatalogAudit.Members

/-! ## One deletion -/

/-- The members `left` are `ms` without the entry at `path`. -/
inductive Deletes : (path : List String) → (ms left : Members) → Prop
  | here {key : String} {v : Json} {ms : Members} : key ∉ ms.names →
      Deletes [key] ((key, v) :: ms) ms
  | inside {key : String} {rest : List String} {child left ms : Members} : key ∉ ms.names →
      Deletes rest child left →
        Deletes (key :: rest) ((key, .obj child) :: ms) ((key, .obj left) :: ms)
  | later {key other : String} {v : Json} {rest : List String} {ms left : Members} :
      other ≠ key → Deletes (key :: rest) ms left →
      Deletes (key :: rest) ((other, v) :: ms) ((other, v) :: left)

theorem delete?_cons_key {key : String} {v : Json} {ms : Members} (h : key ∉ ms.names) :
    delete? ((key, v) :: ms) [key] = some ms := by
  simp [delete?, Assoc.has_cons, Assoc.without_cons, Assoc.without_of_not_mem h]

theorem delete?_cons_obj (key k : String) (child ms : Members) (rest : List String) :
    delete? ((key, .obj child) :: ms) (key :: k :: rest) =
      (child.delete? (k :: rest)).map fun left => (key, .obj left) :: ms := by
  simp [delete?, Assoc.value?_cons, Assoc.put]

theorem delete?_cons_leaf {key k : String} {v : Json} {ms : Members} {rest : List String}
    (hv : v.isContainer = false) : delete? ((key, v) :: ms) (key :: k :: rest) = none := by
  cases v with
  | obj child => cases hv
  | _ => simp [delete?, Assoc.value?_cons]

theorem delete?_cons_of_ne {key other : String} {v : Json} {ms : Members} {rest : List String}
    (h : other ≠ key) :
    delete? ((other, v) :: ms) (key :: rest) =
      (ms.delete? (key :: rest)).map fun left => (other, v) :: left := by
  cases rest with
  | nil =>
    simp only [delete?, Assoc.has_cons, Assoc.without_cons, h, decide_false, Bool.false_or,
      if_false]
    split <;> rfl
  | cons k rest =>
    simp only [delete?, Assoc.value?_cons, h, if_false]
    cases ms.value? key with
    | none => rfl
    | some w =>
      cases w with
      | obj child => simp [Assoc.put, h, Function.comp_def]
      | _ => rfl

theorem deletes_of_delete? {ms left : Members} {path : List String}
    (hd : ms.hasDistinctKeys = true) (h : ms.delete? path = some left) :
    Deletes path ms left := by
  cases path with
  | nil => simp [delete?] at h
  | cons first rest =>
    induction ms using Members.induction generalizing first rest left with
    | nil => cases rest <;> cases h
    | leaf key v ms hv ih =>
      obtain ⟨hk, -, hd⟩ := hasDistinctKeys_cons.1 hd
      by_cases e : key = first
      · subst e
        cases rest with
        | nil =>
          rw [delete?_cons_key hk, Option.some.injEq] at h
          exact h ▸ .here hk
        | cons k rest => simp [delete?_cons_leaf hv] at h
      · rw [delete?_cons_of_ne e] at h
        obtain ⟨below, hb, rfl⟩ := Option.map_eq_some_iff.1 h
        exact .later e (ih hd first rest hb)
    | container key child ms ihc ih =>
      obtain ⟨hk, hdc, hd⟩ := hasDistinctKeys_cons.1 hd
      by_cases e : key = first
      · subst e
        cases rest with
        | nil =>
          rw [delete?_cons_key hk, Option.some.injEq] at h
          exact h ▸ .here hk
        | cons k rest =>
          rw [delete?_cons_obj] at h
          obtain ⟨below, hb, rfl⟩ := Option.map_eq_some_iff.1 h
          exact .inside hk (ihc hdc k rest hb)
      · rw [delete?_cons_of_ne e] at h
        obtain ⟨below, hb, rfl⟩ := Option.map_eq_some_iff.1 h
        exact .later e (ih hd first rest hb)

/-- A deletion takes place exactly when there is an entry. -/
theorem isSome_delete? (ms : Members) (path : List String) :
    (ms.delete? path).isSome = ms.hasEntry path := by
  cases path with
  | nil => simp [delete?, hasEntry]
  | cons first rest =>
    induction rest generalizing ms first with
    | nil =>
      simp only [delete?, hasEntry]
      split <;> simp_all
    | cons k rest ih =>
      simp only [delete?, hasEntry]
      split
      · rw [Option.isSome_map]
        exact ih _ k
      · rfl

/-! ## What one deletion leaves -/

theorem filter_entries_of_not_mem {key : String} (rest : List String) {ms : Members}
    (hk : key ∉ ms.names) :
    ms.entries.filter (fun e => !(key :: rest).isPrefixOf e.1) = ms.entries := by
  refine List.filter_eq_self.2 fun e he => ?_
  obtain ⟨first, hf, below, hb⟩ := exists_cons_of_mem_entries he
  have hne : key ≠ first := fun heq => hk (heq ▸ hf)
  simp [hb, List.isPrefixOf, hne]

theorem filter_under (key : String) (rest : List String) (below : List (List String × Entry)) :
    (below.map fun e => (key :: e.1, e.2)).filter (fun e => !(key :: rest).isPrefixOf e.1) =
      (below.filter fun e => !rest.isPrefixOf e.1).map fun e => (key :: e.1, e.2) := by
  simp [List.filter_map, Function.comp_def, List.isPrefixOf]

theorem filter_under_of_ne {key other : String} (rest : List String)
    (below : List (List String × Entry)) (h : other ≠ key) :
    (below.map fun e => (other :: e.1, e.2)).filter (fun e => !(key :: rest).isPrefixOf e.1) =
      below.map fun e => (other :: e.1, e.2) := by
  refine List.filter_eq_self.2 fun e he => ?_
  obtain ⟨rest, -, rfl⟩ := List.mem_map.1 he
  simp [List.isPrefixOf, Ne.symm h]

namespace Deletes

variable {path : List String} {ms left : Members}

theorem ne_nil (h : Deletes path ms left) : path ≠ [] := by
  rintro rfl
  cases h

/-- The entries that stay, in order, are those that the path does not lead to or stand above. -/
theorem entries_eq (h : Deletes path ms left) :
    left.entries = ms.entries.filter fun e => !path.isPrefixOf e.1 := by
  induction h with
  | @here key v ms hk =>
    rw [entries_cons, List.filter_cons_of_neg (by simp [List.isPrefixOf]), List.filter_append,
      filter_under, filter_entries_of_not_mem _ hk]
    simp [List.isPrefixOf]
  | @inside key rest child left ms hk h ih =>
    obtain ⟨next, more, rfl⟩ := List.exists_cons_of_ne_nil h.ne_nil
    rw [entries_cons, entries_cons, List.filter_cons_of_pos (by simp [List.isPrefixOf]),
      List.filter_append, filter_under, filter_entries_of_not_mem _ hk]
    exact ih ▸ rfl
  | @later key other v rest ms left ho _ ih =>
    rw [entries_cons, entries_cons, List.filter_cons_of_pos (by simp [List.isPrefixOf, Ne.symm ho]),
      List.filter_append, filter_under_of_ne _ _ ho, ih]

theorem leaves_eq (h : Deletes path ms left) :
    left.leaves = ms.leaves.filter fun leaf => !path.isPrefixOf leaf.1 :=
  leaves_eq_of_entries_eq (!path.isPrefixOf ·) h.entries_eq

end Deletes

/-! ## Deletions one after the other -/

/-- Induction on the keys that are deleted one after the other. -/
theorem deleteEach_induction {motive : Members → List String → List String × Members → Prop}
    (nil : ∀ ms, ms.hasDistinctKeys = true → motive ms [] ([], ms))
    (missing : ∀ ms key keys, ms.hasDistinctKeys = true →
      ms.hasEntry (keySegments key) = false → motive ms keys (ms.deleteEach keys) →
      motive ms (key :: keys) (ms.deleteEach keys))
    (deleted : ∀ ms left key keys, ms.hasDistinctKeys = true →
      Deletes (keySegments key) ms left → motive left keys (left.deleteEach keys) →
      motive ms (key :: keys) (key :: (left.deleteEach keys).1, (left.deleteEach keys).2))
    (ms : Members) (keys : List String) (hd : ms.hasDistinctKeys = true) :
    motive ms keys (ms.deleteEach keys) := by
  induction keys generalizing ms with
  | nil => exact nil ms hd
  | cons key keys ih =>
    rw [deleteEach]
    cases h : ms.delete? (keySegments key) with
    | none =>
      have he : ms.hasEntry (keySegments key) = false := by rw [← isSome_delete?, h]; rfl
      exact missing ms key keys hd he (ih ms hd)
    | some left =>
      have hd' := hasDistinctKeys_delete? hd h
      exact deleted ms left key keys hd (deletes_of_delete? hd h) (ih left hd')

/-- The entries that stay are those that no key leads to or stands above. -/
theorem entries_deleteEach {ms : Members} (hd : ms.hasDistinctKeys = true) (keys : List String) :
    (ms.deleteEach keys).2.entries = ms.entries.filter fun e =>
      keys.all fun key => !(keySegments key).isPrefixOf e.1 := by
  refine deleteEach_induction (motive := fun ms keys result =>
    result.2.entries = ms.entries.filter fun e =>
      keys.all fun key => !(keySegments key).isPrefixOf e.1) ?_ ?_ ?_ ms keys hd
  · intro ms _
    exact (List.filter_eq_self.2 fun _ _ => rfl).symm
  · intro ms key keys hd he ih
    rw [ih, ← filter_entries_of_not_hasEntry hd (keySegments_ne_nil key) he, List.filter_filter]
    simp [Bool.and_comm]
  · intro ms left key keys _ hdel ih
    rw [ih, hdel.entries_eq, List.filter_filter]
    simp [Bool.and_comm]

theorem leaves_deleteEach {ms : Members} (hd : ms.hasDistinctKeys = true) (keys : List String) :
    (ms.deleteEach keys).2.leaves = ms.leaves.filter fun leaf =>
      keys.all fun key => !(keySegments key).isPrefixOf leaf.1 :=
  leaves_eq_of_entries_eq (fun path => keys.all fun key => !(keySegments key).isPrefixOf path)
    (entries_deleteEach hd keys)

theorem isPrefixOf_singleton {path : List String} (hne : path ≠ []) (name : String) :
    path.isPrefixOf [name] = decide (path = [name]) := by
  obtain ⟨key, rest, rfl⟩ := List.exists_cons_of_ne_nil hne
  rw [Bool.eq_iff_iff]
  cases rest <;> simp [List.isPrefixOf]

/-- The keys of the root that stay are those that are not deleted there. -/
theorem names_deleteEach {ms : Members} (hd : ms.hasDistinctKeys = true) (keys : List String) :
    (ms.deleteEach keys).2.names = ms.names.filter fun name =>
      keys.all fun key => keySegments key ≠ [name] := by
  have hnames := names_eq_of_entries_eq
    (fun path => keys.all fun key => !(keySegments key).isPrefixOf path)
    (entries_deleteEach hd keys)
  simpa [isPrefixOf_singleton, keySegments_ne_nil] using hnames

/-- Keys that lead to leaves, none of them above another, are all deleted. -/
theorem deleted_deleteEach {ms : Members} (hd : ms.hasDistinctKeys = true) {keys : List String}
    (hl : ∀ key ∈ keys, ∃ leaf ∈ ms.leaves, leaf.1 = keySegments key)
    (hp : keys.Pairwise fun key later => ¬ keySegments key <+: keySegments later) :
    (ms.deleteEach keys).1 = keys := by
  revert hl hp
  refine deleteEach_induction (motive := fun ms keys result =>
    (∀ key ∈ keys, ∃ leaf ∈ ms.leaves, leaf.1 = keySegments key) →
    (keys.Pairwise fun key later => ¬ keySegments key <+: keySegments later) →
    result.1 = keys) ?_ ?_ ?_ ms keys hd
  · intro ms _ _ _
    rfl
  · intro ms key keys hd he _ hl _
    obtain ⟨leaf, hm, hk⟩ := hl key List.mem_cons_self
    rw [hasEntry_of_leaf hd hm (keySegments_ne_nil key) (hk ▸ List.prefix_refl _)] at he
    cases he
  · intro ms left key keys _ hdel ih hl hp
    obtain ⟨hkey, hp⟩ := List.pairwise_cons.1 hp
    refine congrArg (key :: ·) (ih (fun later hm => ?_) hp)
    obtain ⟨leaf, hleaf, hs⟩ := hl later (List.mem_cons_of_mem _ hm)
    refine ⟨leaf, ?_, hs⟩
    rw [hdel.leaves_eq, List.mem_filter]
    have := hkey later hm
    exact ⟨hleaf, by simpa [hs, ← List.isPrefixOf_iff_prefix] using this⟩

/-! ## Entries of the root, one after the other -/

theorem left_deleteTopEach (ms : Members) (keys : List String) :
    (ms.deleteTopEach keys).2 = ms.filter fun m => !keys.contains m.1 := by
  induction keys generalizing ms with
  | nil => exact (List.filter_eq_self.2 fun _ _ => rfl).symm
  | cons key keys ih =>
    rw [deleteTopEach]
    split
    · rw [ih]
      simp [Assoc.without, List.filter_filter, Bool.and_comm]
    · next h =>
      have hm : key ∉ ms.names := fun hm => h (Assoc.has_iff_mem_names.2 hm)
      rw [ih]
      refine List.filter_congr fun m hmem => ?_
      have hne : m.1 ≠ key := fun e => hm (e ▸ List.mem_map_of_mem hmem)
      simp [hne]

/-- Distinct keys are deleted where the root has them. -/
theorem deleted_deleteTopEach (ms : Members) {keys : List String} (hk : keys.Nodup) :
    (ms.deleteTopEach keys).1 = keys.filter ms.has := by
  induction keys generalizing ms with
  | nil => rfl
  | cons key keys ih =>
    obtain ⟨hkey, hk⟩ := List.nodup_cons.1 hk
    rw [deleteTopEach]
    split
    · next h =>
      have hh : ∀ k ∈ keys, Assoc.has (ms.without key) k = ms.has k := by
        intro k hm
        have hne : k ≠ key := fun e => hkey (e ▸ hm)
        rw [Bool.eq_iff_iff]
        simp [Assoc.has_iff_mem_names, Assoc.names_without, hne]
      rw [List.filter_cons_of_pos h, ← List.filter_congr hh]
      exact congrArg (key :: ·) (ih _ hk)
    · next h => rw [List.filter_cons_of_neg h, ih _ hk]

end CatalogAudit.Members
