/-
  CatalogAudit.Proofs.Consistency.Verdict — what a check reports, and when it reports nothing.

  A used key is there when its segments can be followed through objects, whatever stands at
  the end (`Members.Resolves`, `hasEntry_iff_resolves`). What a catalog lacks is listed in
  ascending order, once each (`listsExactly_gaps`).

  Every catalog is compared with every other one. The pairs stand row by row, one row for each
  catalog, without the pair of a catalog and itself: `pairPlace` says where
  (`getElem?_pairsBetween_iff`), and how many they are says `length_pairsBetween`.

  So a report has no issue exactly when no catalog lacks anything and all of them have the
  same keys (`hasIssues_eq_false_iff`). What it says then, entry by entry, is
  `report_is_exact`.
-/

import CatalogAudit.Consistency

namespace CatalogAudit

/-! ## Entries at the end of a path -/

/-- A path whose keys can be followed one after the other, through objects up to the last key,
which may have any value. -/
inductive Members.Resolves : Members → List String → Prop
  | here {ms : Members} {key : String} {v : Json} : ms.value? key = some v → Resolves ms [key]
  | inside {ms child : Members} {key : String} {rest : List String} :
      ms.value? key = some (.obj child) → Resolves child rest → Resolves ms (key :: rest)

theorem Members.hasEntry_iff_resolves {ms : Members} {path : List String} :
    ms.hasEntry path = true ↔ ms.Resolves path := by
  constructor
  · intro h
    induction path generalizing ms with
    | nil => simp [hasEntry] at h
    | cons key rest ih =>
      cases rest with
      | nil =>
        rw [hasEntry, Assoc.has_eq_isSome_value?, Option.isSome_iff_exists] at h
        obtain ⟨v, hv⟩ := h
        exact .here hv
      | cons next rest =>
        rw [hasEntry] at h
        split at h
        · next child hchild => exact .inside hchild (ih h)
        · cases h
        · simp
  · intro h
    induction h with
    | here hv => rw [hasEntry, Assoc.has_eq_isSome_value?, hv]; rfl
    | @inside ms child key rest hchild hrest ih =>
      cases rest with
      | nil => cases hrest
      | cons next rest =>
        rw [hasEntry, hchild]
        · exact ih
        · simp

/-! ## What one catalog lacks -/

/-- The gaps of a catalog: the used names that are no key of its root and the used keys that
name no entry of it, in ascending order and once each. -/
structure Gaps.ListsExactly (g : Gaps) (usage : Usage) (c : Catalog) : Prop where
  locale : g.locale = c.locale
  namespaces : ∀ name, name ∈ g.namespaces ↔ name ∈ usage.namespaces ∧ name ∉ c.root.names
  keys : ∀ key, key ∈ g.keys ↔ key ∈ usage.keys ∧ ¬ c.root.Resolves (keySegments key)
  ascending : g.namespaces.Pairwise (· < ·) ∧ g.keys.Pairwise (· < ·)

namespace Catalog

theorem listsExactly_gaps (usage : Usage) (c : Catalog) :
    (c.gaps usage).ListsExactly usage c := by
  refine ⟨rfl, fun name => ?_, fun key => ?_, ?_, ?_⟩
  · have hname : c.hasNamespace name = true ↔ name ∈ c.root.names := Assoc.has_iff_mem_names
    simp [gaps, NameSet.mem_toList, ← hname]
  · have hkey : c.hasKey key = true ↔ c.root.Resolves (keySegments key) :=
      Members.hasEntry_iff_resolves
    simp [gaps, NameSet.mem_toList, ← hkey]
  · exact usage.namespaces.sorted.filter _
  · exact usage.keys.sorted.filter _

theorem mem_keys_exclusive {c d : Catalog} {key : String} :
    key ∈ (c.exclusive d).keys ↔ key ∈ c.keys ∧ key ∉ d.keys := by
  simp [exclusive]

end Catalog

/-! ## Pairs -/

section Pairs

variable {α β : Type}

theorem map_filter_zipIdx (xs : List α) (start i : Nat) :
    ((xs.zipIdx start).filter fun p => start + i != p.2).map (·.1) = xs.eraseIdx i := by
  induction xs generalizing start i with
  | nil => rfl
  | cons x xs ih =>
    rw [List.zipIdx_cons]
    cases i with
    | zero =>
      have hlater : ∀ p ∈ xs.zipIdx (start + 1), (start + 0 != p.2) = true := by
        intro p hp
        have hle := List.le_snd_of_mem_zipIdx hp
        rw [bne_iff_ne]
        omega
      rw [List.filter_cons_of_neg (by simp), List.filter_eq_self.2 hlater]
      exact List.zipIdx_map_fst (start + 1) xs
    | succ i =>
      have hshift : start + (i + 1) = start + 1 + i := by omega
      rw [List.filter_cons_of_pos (by simp), List.map_cons, hshift, ih, List.eraseIdx_cons_succ]

/-- Each item comes with the others, in order. -/
theorem pairsBetween_eq (xs : List α) :
    pairsBetween xs = xs.zipIdx.flatMap fun p => (xs.eraseIdx p.2).map fun y => (p.1, y) := by
  unfold pairsBetween
  congr 1
  funext p
  have hothers := map_filter_zipIdx xs 0 p.2
  rw [Nat.zero_add] at hothers
  rw [← hothers, List.map_map]
  rfl

theorem length_flatMap_of_length {f : α → List β} {width : Nat} {xs : List α}
    (h : ∀ x ∈ xs, (f x).length = width) : (xs.flatMap f).length = xs.length * width := by
  induction xs with
  | nil => simp
  | cons x xs ih =>
    obtain ⟨hx, hxs⟩ := List.forall_mem_cons.1 h
    rw [List.flatMap_cons, List.length_append, hx, ih hxs, List.length_cons, Nat.succ_mul,
      Nat.add_comm]

/-- Rows of one width stand one after the other. -/
theorem getElem?_flatMap_of_length {f : α → List β} {width : Nat} {xs : List α}
    (h : ∀ x ∈ xs, (f x).length = width) {i : Nat} {x : α} (hi : xs[i]? = some x) {j : Nat}
    (hj : j < width) : (xs.flatMap f)[i * width + j]? = (f x)[j]? := by
  induction xs generalizing i with
  | nil => cases hi
  | cons y xs ih =>
    obtain ⟨hy, hxs⟩ := List.forall_mem_cons.1 h
    rw [List.flatMap_cons]
    cases i with
    | zero =>
      cases hi
      rw [Nat.zero_mul, Nat.zero_add, List.getElem?_append_left (by omega)]
    | succ i =>
      have hskip : (i + 1) * width + j - width = i * width + j := by
        rw [Nat.succ_mul]
        omega
      have hle : width ≤ (i + 1) * width + j := by
        rw [Nat.succ_mul]
        omega
      rw [List.getElem?_append_right (by omega), hy, hskip]
      exact ih hxs hi

/-- The place of the pair of the items at `i` and `j` among the pairs of `count` items. -/
def pairPlace (count i j : Nat) : Nat := i * (count - 1) + if j < i then j else j - 1

theorem length_row {xs : List α} {p : α × Nat} (hp : p ∈ xs.zipIdx) :
    ((xs.eraseIdx p.2).map fun y => (p.1, y)).length = xs.length - 1 := by
  have hlt := List.snd_lt_of_mem_zipIdx hp
  rw [List.length_map, List.length_eraseIdx, if_pos (by omega)]

theorem length_pairsBetween (xs : List α) :
    (pairsBetween xs).length = xs.length * (xs.length - 1) := by
  rw [pairsBetween_eq, length_flatMap_of_length fun p hp => length_row hp, List.length_zipIdx]

/-- Every two items at different places are a pair, and it stands at its place. -/
theorem getElem?_pairsBetween {xs : List α} {i j : Nat} {x y : α} (hne : i ≠ j)
    (hx : xs[i]? = some x) (hy : xs[j]? = some y) :
    (pairsBetween xs)[pairPlace xs.length i j]? = some (x, y) := by
  obtain ⟨hi, -⟩ := List.getElem?_eq_some_iff.1 hx
  obtain ⟨hj, -⟩ := List.getElem?_eq_some_iff.1 hy
  have hrow : xs.zipIdx[i]? = some (x, i) := by simp [hx]
  have hcolumn : (if j < i then j else j - 1) < xs.length - 1 := by
    split <;> omega
  rw [pairsBetween_eq, pairPlace,
    getElem?_flatMap_of_length (fun p hp => length_row hp) hrow hcolumn, List.getElem?_map,
    List.getElem?_eraseIdx]
  by_cases hlt : j < i
  · simp [hlt, hy]
  · have hback : j - 1 + 1 = j := by omega
    have hafter : ¬ j - 1 < i := by omega
    simp [hlt, hafter, hback, hy]

/-- Every place is that of a pair: its row is that of the first item, and the second one comes
earlier or later than the item that the row leaves out. -/
theorem exists_pairPlace_eq {count place : Nat} (h : place < count * (count - 1)) :
    ∃ i j, i < count ∧ j < count ∧ i ≠ j ∧ pairPlace count i j = place := by
  have hwidth : 0 < count - 1 := Nat.pos_of_lt_mul_left h
  have hrow : place / (count - 1) < count := Nat.div_lt_of_lt_mul (Nat.mul_comm _ _ ▸ h)
  have hcolumn : place % (count - 1) < count - 1 := Nat.mod_lt place hwidth
  have hplace : place / (count - 1) * (count - 1) + place % (count - 1) = place :=
    Nat.div_add_mod' place (count - 1)
  generalize place / (count - 1) = i at hrow hplace
  generalize place % (count - 1) = column at hcolumn hplace
  by_cases hlt : column < i
  · exact ⟨i, column, hrow, by omega, by omega, by rw [pairPlace, if_pos hlt, hplace]⟩
  · exact ⟨i, column + 1, hrow, by omega, by omega,
      by rw [pairPlace, if_neg (by omega), Nat.add_sub_cancel, hplace]⟩

theorem getElem?_pairsBetween_iff {xs : List α} {place : Nat} {p : α × α} :
    (pairsBetween xs)[place]? = some p ↔
      ∃ i j, i ≠ j ∧ xs[i]? = some p.1 ∧ xs[j]? = some p.2 ∧
        place = pairPlace xs.length i j := by
  constructor
  · intro h
    obtain ⟨hlt, -⟩ := List.getElem?_eq_some_iff.1 h
    rw [length_pairsBetween] at hlt
    obtain ⟨i, j, hi, hj, hne, hplace⟩ := exists_pairPlace_eq hlt
    have hi := List.getElem?_eq_getElem hi
    have hj := List.getElem?_eq_getElem hj
    rw [← hplace, getElem?_pairsBetween hne hi hj, Option.some.injEq] at h
    subst h
    exact ⟨i, j, hne, hi, hj, hplace.symm⟩
  · rintro ⟨i, j, hne, hi, hj, rfl⟩
    exact getElem?_pairsBetween hne hi hj

example : pairsBetween ["en", "zh", "ja"] =
    [("en", "zh"), ("en", "ja"), ("zh", "en"), ("zh", "ja"), ("ja", "en"), ("ja", "zh")] := rfl

theorem mem_of_mem_pairsBetween {xs : List α} {p : α × α} (h : p ∈ pairsBetween xs) :
    p.1 ∈ xs ∧ p.2 ∈ xs := by
  obtain ⟨place, hplace⟩ := List.mem_iff_getElem?.1 h
  obtain ⟨i, j, -, hi, hj, -⟩ := getElem?_pairsBetween_iff.1 hplace
  exact ⟨List.mem_of_getElem? hi, List.mem_of_getElem? hj⟩

end Pairs

/-! ## The report -/

namespace Consistency

variable {usage : Usage} {catalogs : List Catalog}

/-- All pairs are without exclusive keys when all catalogs have the same keys. -/
theorem forall_exclusive_iff :
    (∀ p ∈ pairsBetween catalogs, (p.1.exclusive p.2).keys = []) ↔
      ∀ c ∈ catalogs, ∀ d ∈ catalogs, ∀ key, key ∈ c.keys ↔ key ∈ d.keys := by
  constructor
  · intro h
    have hsub : ∀ c ∈ catalogs, ∀ d ∈ catalogs, ∀ key, key ∈ c.keys → key ∈ d.keys := by
      intro c hc d hd key hkey
      obtain ⟨i, hi⟩ := List.mem_iff_getElem?.1 hc
      obtain ⟨j, hj⟩ := List.mem_iff_getElem?.1 hd
      by_cases hij : i = j
      · subst hij
        rw [hi, Option.some.injEq] at hj
        exact hj ▸ hkey
      · have hnone := h _ (List.mem_of_getElem? (getElem?_pairsBetween hij hi hj))
        refine Classical.byContradiction fun hn => ?_
        have hmem := Catalog.mem_keys_exclusive.2 ⟨hkey, hn⟩
        rw [hnone] at hmem
        cases hmem
    intro c hc d hd key
    exact ⟨hsub c hc d hd key, hsub d hd c hc key⟩
  · intro h p hp
    obtain ⟨hc, hd⟩ := mem_of_mem_pairsBetween hp
    refine List.eq_nil_iff_forall_not_mem.2 fun key hkey => ?_
    obtain ⟨hin, hout⟩ := Catalog.mem_keys_exclusive.1 hkey
    exact hout ((h _ hc _ hd key).1 hin)

theorem forall_gaps_iff (c : Catalog) :
    (c.gaps usage).namespaces = [] ∧ (c.gaps usage).keys = [] ↔
      (∀ name ∈ usage.namespaces, name ∈ c.root.names) ∧
        ∀ key ∈ usage.keys, c.root.Resolves (keySegments key) := by
  have hlists := Catalog.listsExactly_gaps usage c
  rw [List.eq_nil_iff_forall_not_mem, List.eq_nil_iff_forall_not_mem]
  simp only [hlists.namespaces, hlists.keys, not_and, Classical.not_not]

theorem hasIssues_eq_false_iff :
    (ofCatalogs usage catalogs).hasIssues = false ↔
      (∀ c ∈ catalogs, (∀ name ∈ usage.namespaces, name ∈ c.root.names) ∧
        ∀ key ∈ usage.keys, c.root.Resolves (keySegments key)) ∧
      ∀ c ∈ catalogs, ∀ d ∈ catalogs, ∀ key, key ∈ c.keys ↔ key ∈ d.keys := by
  rw [← forall_exclusive_iff, hasIssues, Bool.or_eq_false_iff]
  refine and_congr ?_ ?_
  · simp only [ofCatalogs, List.any_eq_false, List.forall_mem_map, ← forall_gaps_iff]
    simp
  · simp only [ofCatalogs, List.any_eq_false, List.forall_mem_map]
    simp

/-- What the check of some catalogs reports for a usage: there is no issue exactly when every
catalog has what is used and all catalogs have the same keys. What a catalog lacks is listed
in its place, and what one has and another lacks in the place of the two. -/
theorem report_is_exact (usage : Usage) (catalogs : List Catalog) :
    let report := ofCatalogs usage catalogs
    (report.hasIssues = false ↔
      ∀ c ∈ catalogs, (∀ name ∈ usage.namespaces, name ∈ c.root.names) ∧
        (∀ key ∈ usage.keys, c.root.Resolves (keySegments key)) ∧
        ∀ d ∈ catalogs, ∀ key, key ∈ c.keys ↔ key ∈ d.keys) ∧
    report.gaps.length = catalogs.length ∧
    (∀ (i : Nat) (c : Catalog), catalogs[i]? = some c →
      ∃ g, report.gaps[i]? = some g ∧ g.ListsExactly usage c) ∧
    report.exclusive.length = catalogs.length * (catalogs.length - 1) ∧
    ∀ (place : Nat) (e : Exclusive), report.exclusive[place]? = some e ↔
      ∃ (i j : Nat) (c d : Catalog), i ≠ j ∧ catalogs[i]? = some c ∧ catalogs[j]? = some d ∧
        place = pairPlace catalogs.length i j ∧
        e = ⟨c.locale, d.locale, c.keys.filter (· ∉ d.keys)⟩ := by
  intro report
  refine ⟨?_, ?_, ?_, ?_, ?_⟩
  · rw [hasIssues_eq_false_iff]
    constructor
    · rintro ⟨hhas, hsame⟩ c hc
      exact ⟨(hhas c hc).1, (hhas c hc).2, hsame c hc⟩
    · intro h
      exact ⟨fun c hc => ⟨(h c hc).1, (h c hc).2.1⟩, fun c hc => (h c hc).2.2⟩
  · exact List.length_map _
  · intro i c hc
    refine ⟨c.gaps usage, ?_, Catalog.listsExactly_gaps usage c⟩
    show (catalogs.map (·.gaps usage))[i]? = _
    rw [List.getElem?_map, hc]
    rfl
  · show ((pairsBetween catalogs).map _).length = _
    rw [List.length_map, length_pairsBetween]
  · intro place e
    have hexclusive (c d : Catalog) :
        c.exclusive d = ⟨c.locale, d.locale, c.keys.filter (· ∉ d.keys)⟩ := by
      simp [Catalog.exclusive]
    show ((pairsBetween catalogs).map fun p => p.1.exclusive p.2)[place]? = some e ↔ _
    rw [List.getElem?_map, Option.map_eq_some_iff]
    constructor
    · rintro ⟨p, hp, rfl⟩
      obtain ⟨i, j, hne, hi, hj, hplace⟩ := getElem?_pairsBetween_iff.1 hp
      exact ⟨i, j, p.1, p.2, hne, hi, hj, hplace, hexclusive p.1 p.2⟩
    · rintro ⟨i, j, c, d, hne, hi, hj, rfl, rfl⟩
      exact ⟨(c, d), getElem?_pairsBetween hne hi hj, hexclusive c d⟩

end Consistency

end CatalogAudit
