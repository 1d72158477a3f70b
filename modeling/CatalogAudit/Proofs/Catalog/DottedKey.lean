/-
  CatalogAudit.Proofs.Catalog.DottedKey — dotted keys and the paths that they name.

  The segments of a key, joined by dots, are the key again (`joined_keySegments`). The other
  way round a path is what its dotted key names when its keys are plain
  (`keySegments_dottedKey`), and so it is with the leaves of a catalog with plain keys
  (`keySegments_leaf`). Other keys may lead elsewhere: `dottedKey ["a.b"]` names the path `a`,
  `b`, and so does `dottedKey ["", "a", "b"]`.
-/

import CatalogAudit.Proofs.Catalog.Containers
import CatalogAudit.Proofs.Text.Splitting

namespace CatalogAudit

/-! ## The segments of a key -/

theorem keySegments_ne_nil (key : String) : keySegments key ≠ [] := by
  simpa [keySegments, Text.split] using Text.splitOn_ne_nil '.' key.toList

theorem joined_keySegments (key : String) : Text.joined "." (keySegments key) = key := by
  apply String.toList_inj.1
  simpa [Text.joined, keySegments, Text.split, Function.comp_def] using
    Text.join_splitOn '.' key.toList

theorem keySegments_append (key more : String) :
    keySegments (key ++ "." ++ more) = keySegments key ++ keySegments more := by
  simp [keySegments, Text.split, Text.splitOn_append_cons]

theorem keySegments_of_noDot {key : String} (h : '.' ∉ key.toList) : keySegments key = [key] := by
  simp [keySegments, Text.split, Text.splitOn_of_not_mem h]

/-! ## Paths of plain keys -/

theorem isPlainKey_iff {key : String} : isPlainKey key = true ↔ key ≠ "" ∧ '.' ∉ key.toList := by
  simp [isPlainKey]

/-- What is appended to a key that is not empty comes after a dot, so it makes segments of
its own. -/
theorem keySegments_foldl {key : String} (hk : key ≠ "") (path : List String) :
    keySegments (path.foldl
      (fun key segment => if key = "" then segment else key ++ "." ++ segment) key) =
        keySegments key ++ path.flatMap keySegments := by
  induction path generalizing key with
  | nil => simp
  | cons segment path ih =>
    have hne : key ++ "." ++ segment ≠ "" := by
      intro e
      have := congrArg String.toList e
      simp at this
    rw [List.foldl_cons, if_neg hk, ih hne, keySegments_append, List.flatMap_cons,
      List.append_assoc]

theorem flatMap_keySegments {path : List String} (h : ∀ key ∈ path, '.' ∉ key.toList) :
    path.flatMap keySegments = path := by
  induction path with
  | nil => rfl
  | cons key path ih =>
    obtain ⟨hkey, hpath⟩ := List.forall_mem_cons.1 h
    rw [List.flatMap_cons, keySegments_of_noDot hkey, ih hpath, List.singleton_append]

theorem keySegments_dottedKey {path : List String} (hne : path ≠ [])
    (h : ∀ key ∈ path, isPlainKey key = true) : keySegments (dottedKey path) = path := by
  obtain ⟨first, rest, rfl⟩ := List.exists_cons_of_ne_nil hne
  have hfirst : first ≠ "" := (isPlainKey_iff.1 (h first List.mem_cons_self)).1
  have hdots : ∀ key ∈ first :: rest, '.' ∉ key.toList := fun key hk =>
    (isPlainKey_iff.1 (h key hk)).2
  rw [dottedKey, List.foldl_cons, if_pos rfl, keySegments_foldl hfirst, ← List.flatMap_cons,
    flatMap_keySegments hdots]

/-! ## The leaves of a catalog with plain keys -/

namespace Members

theorem isPlainKey_of_mem_leaf {ms : Members} (hp : ms.hasPlainKeys = true)
    {leaf : List String × Json} (hl : leaf ∈ ms.leaves) :
    ∀ key ∈ leaf.1, isPlainKey key = true := by
  induction ms using Members.induction generalizing leaf with
  | nil => simp at hl
  | leaf key v ms hv ih =>
    obtain ⟨hk, -, hp⟩ := everyEntry_cons.1 hp
    rw [leaves_cons_leaf hv] at hl
    rcases List.mem_cons.1 hl with rfl | hl
    · simpa using hk
    · exact ih hp hl
  | container key child ms ihc ih =>
    obtain ⟨hk, hpc, hp⟩ := everyEntry_cons.1 hp
    rcases List.mem_append.1 hl with hl | hl
    · obtain ⟨below, hb, rfl⟩ := List.mem_map.1 hl
      intro k hm
      rcases List.mem_cons.1 hm with rfl | hm
      · exact hk
      · exact ihc hpc hb k hm
    · exact ih hp hl

theorem keySegments_leaf {ms : Members} (hp : ms.hasPlainKeys = true)
    {leaf : List String × Json} (hl : leaf ∈ ms.leaves) :
    keySegments (dottedKey leaf.1) = leaf.1 := by
  obtain ⟨first, -, rest, hr⟩ := exists_cons_of_mem_leaves hl
  exact keySegments_dottedKey (by simp [hr]) (isPlainKey_of_mem_leaf hp hl)

end Members

end CatalogAudit
