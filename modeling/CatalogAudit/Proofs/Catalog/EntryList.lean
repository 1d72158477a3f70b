/-
  CatalogAudit.Proofs.Catalog.EntryList — all entries of a catalog in one list.

  `entries` lists the containers and the leaves with their paths, a container before what is in
  it and otherwise in order. The leaves are the part of it that has values
  (`leaves_eq_filterMap`), the keys of the root are its paths of one key (`names_eq_filterMap`).
  So whatever keeps the entries by their paths keeps the leaves and the keys of the root by them
  (`leaves_eq_of_entries_eq`, `names_eq_of_entries_eq`).

  `valueAt?` follows a path through containers. With distinct keys a path leads to an entry when
  it is in the list (`hasEntry_iff_mem_entries`), to a leaf when what it leads to is no container
  (`mem_leaves_iff_valueAt?`), and nothing is lost: the list determines the catalog
  (`eq_of_entries_eq`). In a compact catalog every entry is a leaf or on the way to one
  (`hasEntry_iff_leaf`), a container when it is above one (`container_mem_entries_iff`).
-/

import CatalogAudit.Proofs.Catalog.Containers

namespace CatalogAudit

/-- What stands at the end of a path. -/
inductive Entry where
  | container
  | leaf (v : Json)
  deriving Repr

def Entry.value? : Entry → Option Json
  | .container => none
  | .leaf v => some v

def Json.entry : Json → Entry
  | .obj _ => .container
  | v => .leaf v

mutual

/-- The entries below a value, with the paths that lead on from it. -/
def Json.entriesBelow : Json → List (List String × Entry)
  | .obj ms => Members.entries ms
  | _ => []
  termination_by structural v => v

/-- The entries with their paths, each container before what is in it. -/
def Members.entries : Members → List (List String × Entry)
  | [] => []
  | m :: ms => memberEntries m ++ Members.entries ms
  termination_by structural ms => ms

def memberEntries : String × Json → List (List String × Entry)
  | (key, v) => ([key], v.entry) :: v.entriesBelow.map fun e => (key :: e.1, e.2)
  termination_by structural m => m

end

theorem Json.entry_of_leaf {v : Json} (hv : v.isContainer = false) : v.entry = .leaf v := by
  cases v with
  | obj child => cases hv
  | _ => rfl

theorem Json.eq_of_entry_eq_leaf {v w : Json} (h : w.entry = .leaf v) : w = v := by
  cases w <;> cases h <;> rfl

theorem Json.exists_obj_of_entry_eq_container {w : Json} (h : w.entry = .container) :
    ∃ child, w = .obj child := by
  cases w with
  | obj child => exact ⟨child, rfl⟩
  | _ => cases h

theorem Json.entriesBelow_of_leaf {v : Json} (hv : v.isContainer = false) :
    v.entriesBelow = [] := by
  cases v with
  | obj child => cases hv
  | _ => rfl

/-- Two lists that go on after the paths under one key are equal piece by piece, when nothing
later is under that key. -/
theorem under_append_inj {α : Type} {key : String} {xs ys later later' : List (List String × α)}
    (hl : ∀ e ∈ later, e.1.head? ≠ some key) (hl' : ∀ e ∈ later', e.1.head? ≠ some key)
    (h : xs.map (fun e => (key :: e.1, e.2)) ++ later =
      ys.map (fun e => (key :: e.1, e.2)) ++ later') : xs = ys ∧ later = later' := by
  induction xs generalizing ys with
  | nil =>
    cases ys with
    | nil => exact ⟨rfl, h⟩
    | cons y ys =>
      have hy : (key :: y.1, y.2) ∈ later := by
        simp only [List.map_nil, List.nil_append] at h
        simp [h]
      exact absurd rfl (hl _ hy)
  | cons x xs ih =>
    cases ys with
    | nil =>
      have hx : (key :: x.1, x.2) ∈ later' := by
        simp only [List.map_nil, List.nil_append] at h
        simp [← h]
      exact absurd rfl (hl' _ hx)
    | cons y ys =>
      simp only [List.map_cons, List.cons_append, List.cons.injEq, Prod.mk.injEq, true_and] at h
      obtain ⟨hxy, h⟩ := h
      obtain ⟨hxs, hlater⟩ := ih h
      exact ⟨by rw [Prod.ext hxy.1 hxy.2, hxs], hlater⟩

namespace Members

@[simp] theorem entries_nil : entries [] = [] := rfl

theorem entries_cons (key : String) (v : Json) (ms : Members) :
    entries ((key, v) :: ms) =
      ([key], v.entry) :: (v.entriesBelow.map (fun e => (key :: e.1, e.2)) ++ ms.entries) :=
  rfl

theorem mem_entries_cons {key : String} {v : Json} {ms : Members} {path : List String} {e : Entry} :
    (path, e) ∈ entries ((key, v) :: ms) ↔
      path = [key] ∧ e = v.entry ∨ (∃ rest, path = key :: rest ∧ (rest, e) ∈ v.entriesBelow) ∨
        (path, e) ∈ ms.entries := by
  rw [entries_cons, List.mem_cons, List.mem_append, List.mem_map, Prod.mk.injEq]
  constructor
  · intro h
    rcases h with h | ⟨below, hb, h⟩ | h
    · exact .inl h
    · cases h
      exact .inr (.inl ⟨below.1, rfl, hb⟩)
    · exact .inr (.inr h)
  · intro h
    rcases h with h | ⟨rest, rfl, hb⟩ | h
    · exact .inl h
    · exact .inr (.inl ⟨(rest, e), hb, rfl⟩)
    · exact .inr (.inr h)

/-- An entry is a member of the root or lies below one. -/
theorem mem_entries_iff {ms : Members} {path : List String} {e : Entry} :
    (path, e) ∈ ms.entries ↔ ∃ (key : String) (v : Json), (key, v) ∈ ms ∧
      (path = [key] ∧ e = v.entry ∨ ∃ rest, path = key :: rest ∧ (rest, e) ∈ v.entriesBelow) := by
  induction ms with
  | nil => simp
  | cons m ms ih =>
    obtain ⟨first, w⟩ := m
    rw [mem_entries_cons, ih]
    constructor
    · intro h
      rcases h with h | h | ⟨key, v, hm, h⟩
      · exact ⟨first, w, List.mem_cons_self, .inl h⟩
      · exact ⟨first, w, List.mem_cons_self, .inr h⟩
      · exact ⟨key, v, List.mem_cons_of_mem _ hm, h⟩
    · intro h
      obtain ⟨key, v, hm, h⟩ := h
      rcases List.mem_cons.1 hm with heq | hm
      · cases heq
        exact or_assoc.1 (.inl h)
      · exact .inr (.inr ⟨key, v, hm, h⟩)

/-- The first key on the way to an entry is a key of the root. -/
theorem exists_cons_of_mem_entries {ms : Members} {path : List String} {e : Entry}
    (h : (path, e) ∈ ms.entries) : ∃ key ∈ ms.names, ∃ rest, path = key :: rest := by
  obtain ⟨key, v, hm, h⟩ := mem_entries_iff.1 h
  have hname : key ∈ ms.names := List.mem_map_of_mem hm
  rcases h with ⟨hpath, -⟩ | ⟨rest, hpath, -⟩
  · exact ⟨key, hname, [], hpath⟩
  · exact ⟨key, hname, rest, hpath⟩

theorem head?_ne_of_mem_entries {key : String} {ms : Members} (hk : key ∉ ms.names) :
    ∀ e ∈ ms.entries, e.1.head? ≠ some key := by
  intro e he heq
  obtain ⟨first, hf, rest, hr⟩ := exists_cons_of_mem_entries he
  rw [hr, List.head?_cons, Option.some.injEq] at heq
  exact hk (heq ▸ hf)

/-! ## Leaves and keys of the root in the list -/

theorem leaves_eq_filterMap (ms : Members) :
    ms.leaves = ms.entries.filterMap fun e => e.2.value?.map fun v => (e.1, v) := by
  induction ms using Members.induction with
  | nil => rfl
  | leaf key v ms hv ih =>
    rw [leaves_cons_leaf hv, entries_cons, Json.entry_of_leaf hv, Json.entriesBelow_of_leaf hv, ih]
    rfl
  | container key child ms ihc ih =>
    rw [leaves_cons_obj, entries_cons, ihc, ih]
    simp [Json.entry, Json.entriesBelow, Entry.value?, List.filterMap_append, List.map_filterMap,
      List.filterMap_map, Function.comp_def]

theorem mem_leaves_iff {ms : Members} {path : List String} {v : Json} :
    (path, v) ∈ ms.leaves ↔ (path, .leaf v) ∈ ms.entries := by
  rw [leaves_eq_filterMap, List.mem_filterMap]
  constructor
  · intro h
    obtain ⟨⟨p, e⟩, he, hv⟩ := h
    cases e with
    | container => cases hv
    | leaf w =>
      cases hv
      exact he
  · intro h
    exact ⟨_, h, rfl⟩

/-- The key at the end of a path of one key. -/
def rootKey? : List String → Option String
  | [key] => some key
  | _ => none

theorem names_eq_filterMap (ms : Members) :
    ms.names = ms.entries.filterMap fun e => rootKey? e.1 := by
  induction ms with
  | nil => rfl
  | cons m ms ih =>
    obtain ⟨key, v⟩ := m
    have hbelow : (v.entriesBelow.map fun e => (key :: e.1, e.2)).filterMap
        (fun e => rootKey? e.1) = [] := by
      rw [List.filterMap_map, List.filterMap_eq_nil_iff]
      intro e he
      cases v with
      | obj child =>
        obtain ⟨first, -, rest, hr⟩ := exists_cons_of_mem_entries he
        simp [hr, rootKey?]
      | _ => cases he
    rw [entries_cons, List.filterMap_cons, List.filterMap_append, hbelow, ← ih]
    rfl

/-- What is read off the entries that are kept is what is kept of what is read off. -/
theorem filterMap_filter_of {α β : Type} {f : α → Option β} {keep : α → Bool} {keep' : β → Bool}
    (h : ∀ a b, f a = some b → keep' b = keep a) (xs : List α) :
    (xs.filter keep).filterMap f = (xs.filterMap f).filter keep' := by
  rw [List.filterMap_filter, List.filter_filterMap]
  congr 1
  funext a
  cases hf : f a with
  | none => simp
  | some b => simp [Option.filter, h a b hf]

/-- A catalog that keeps its entries by their paths keeps its leaves by them. -/
theorem leaves_eq_of_entries_eq {ms left : Members} (keep : List String → Bool)
    (h : left.entries = ms.entries.filter fun e => keep e.1) :
    left.leaves = ms.leaves.filter fun leaf => keep leaf.1 := by
  rw [leaves_eq_filterMap, leaves_eq_filterMap, h]
  refine filterMap_filter_of (fun e leaf hleaf => ?_) ms.entries
  obtain ⟨v, -, rfl⟩ := Option.map_eq_some_iff.1 hleaf
  rfl

theorem names_eq_of_entries_eq {ms left : Members} (keep : List String → Bool)
    (h : left.entries = ms.entries.filter fun e => keep e.1) :
    left.names = ms.names.filter fun name => keep [name] := by
  rw [names_eq_filterMap, names_eq_filterMap, h]
  refine filterMap_filter_of (fun e name hname => ?_) ms.entries
  unfold rootKey? at hname
  split at hname
  · next key hpath =>
    cases hname
    rw [hpath]
  · cases hname

/-! ## Paths that lead to an entry -/

/-- The value that a path leads to, through containers all the way. -/
def valueAt? : Members → List String → Option Json
  | _, [] => none
  | ms, [key] => ms.value? key
  | ms, key :: rest =>
    match ms.value? key with
    | some (.obj child) => valueAt? child rest
    | _ => none

theorem hasEntry_eq_isSome_valueAt? (ms : Members) (path : List String) :
    ms.hasEntry path = (ms.valueAt? path).isSome := by
  induction path generalizing ms with
  | nil => rfl
  | cons key rest ih =>
    cases rest with
    | nil => exact Assoc.has_eq_isSome_value? ms key
    | cons next rest =>
      simp only [hasEntry, valueAt?]
      cases ms.value? key with
      | none => rfl
      | some v =>
        cases v with
        | obj child => exact ih child
        | _ => rfl

theorem hasEntry_iff_valueAt? {ms : Members} {path : List String} :
    ms.hasEntry path = true ↔ ∃ v, ms.valueAt? path = some v := by
  rw [hasEntry_eq_isSome_valueAt?, Option.isSome_iff_exists]

theorem mem_entries_of_valueAt? {ms : Members} {path : List String} {v : Json}
    (h : ms.valueAt? path = some v) : (path, v.entry) ∈ ms.entries := by
  induction path generalizing ms with
  | nil => cases h
  | cons key rest ih =>
    cases rest with
    | nil => exact mem_entries_iff.2 ⟨key, v, Assoc.mem_of_value? h, .inl ⟨rfl, rfl⟩⟩
    | cons next rest =>
      simp only [valueAt?] at h
      split at h
      · next child hchild =>
        exact mem_entries_iff.2
          ⟨key, .obj child, Assoc.mem_of_value? hchild, .inr ⟨next :: rest, rfl, ih h⟩⟩
      · cases h

theorem exists_valueAt?_of_mem_entries {ms : Members} (hd : ms.hasDistinctKeys = true)
    {path : List String} {e : Entry} (h : (path, e) ∈ ms.entries) :
    ∃ v, ms.valueAt? path = some v ∧ v.entry = e := by
  induction path generalizing ms with
  | nil =>
    obtain ⟨key, -, rest, hr⟩ := exists_cons_of_mem_entries h
    cases hr
  | cons first rest ih =>
    obtain ⟨key, v, hm, h⟩ := mem_entries_iff.1 h
    have hvalue : ms.value? key = some v := (Assoc.value?_eq_some_iff (nodup_names hd)).2 hm
    rcases h with ⟨hpath, rfl⟩ | ⟨below, hpath, hbelow⟩
    · cases hpath
      exact ⟨v, hvalue, rfl⟩
    · cases hpath
      cases v with
      | obj child =>
        obtain ⟨next, -, more, rfl⟩ := exists_cons_of_mem_entries hbelow
        simp only [valueAt?, hvalue]
        exact ih (hasDistinctKeys_of_mem hd hm) hbelow
      | _ => cases hbelow

/-- The leaves are the values at the paths that are no containers. -/
theorem mem_leaves_iff_valueAt? {ms : Members} (hd : ms.hasDistinctKeys = true)
    {path : List String} {v : Json} :
    (path, v) ∈ ms.leaves ↔ ms.valueAt? path = some v ∧ v.isContainer = false := by
  rw [mem_leaves_iff]
  constructor
  · intro h
    obtain ⟨w, hw, hentry⟩ := exists_valueAt?_of_mem_entries hd h
    obtain rfl := Json.eq_of_entry_eq_leaf hentry
    refine ⟨hw, ?_⟩
    cases w with
    | obj child => cases hentry
    | _ => rfl
  · intro h
    rw [← Json.entry_of_leaf h.2]
    exact mem_entries_of_valueAt? h.1

theorem mem_entries_of_hasEntry {ms : Members} {path : List String}
    (h : ms.hasEntry path = true) : ∃ e, (path, e) ∈ ms.entries := by
  obtain ⟨v, hv⟩ := hasEntry_iff_valueAt?.1 h
  exact ⟨v.entry, mem_entries_of_valueAt? hv⟩

theorem hasEntry_of_mem_entries {ms : Members} (hd : ms.hasDistinctKeys = true)
    {path : List String} {e : Entry} (h : (path, e) ∈ ms.entries) : ms.hasEntry path = true := by
  obtain ⟨v, hv, -⟩ := exists_valueAt?_of_mem_entries hd h
  exact hasEntry_iff_valueAt?.2 ⟨v, hv⟩

/-- The paths in the list are those that lead to an entry. -/
theorem hasEntry_iff_mem_entries {ms : Members} (hd : ms.hasDistinctKeys = true)
    {path : List String} : ms.hasEntry path = true ↔ ∃ e, (path, e) ∈ ms.entries :=
  ⟨mem_entries_of_hasEntry, fun ⟨_, he⟩ => hasEntry_of_mem_entries hd he⟩

/-- What stands above an entry is an entry. -/
theorem hasEntry_above {ms : Members} {path longer : List String} (hne : path ≠ [])
    (hp : path <+: longer) (h : ms.hasEntry longer = true) : ms.hasEntry path = true := by
  induction path generalizing ms longer with
  | nil => exact absurd rfl hne
  | cons key rest ih =>
    obtain ⟨more, rfl⟩ := hp
    cases rest with
    | nil =>
      cases more with
      | nil => exact h
      | cons next more =>
        simp only [List.cons_append, List.nil_append, hasEntry] at h
        split at h
        · next hchild =>
          rw [hasEntry, Assoc.has_eq_isSome_value?, hchild]
          rfl
        · cases h
    | cons next rest =>
      simp only [List.cons_append, hasEntry] at h ⊢
      split at h
      · exact ih (List.cons_ne_nil next rest) ⟨more, rfl⟩ h
      · cases h

/-- Every path towards a leaf leads to an entry. -/
theorem hasEntry_of_leaf {ms : Members} (hd : ms.hasDistinctKeys = true)
    {leaf : List String × Json} (hl : leaf ∈ ms.leaves) {path : List String} (hne : path ≠ [])
    (hp : path <+: leaf.1) : ms.hasEntry path = true :=
  hasEntry_above hne hp (hasEntry_of_mem_entries hd (mem_leaves_iff.1 hl))

theorem filter_entries_of_not_hasEntry {ms : Members} (hd : ms.hasDistinctKeys = true)
    {path : List String} (hne : path ≠ []) (h : ms.hasEntry path = false) :
    (ms.entries.filter fun e => !path.isPrefixOf e.1) = ms.entries := by
  refine List.filter_eq_self.2 fun e he => ?_
  have hp : ¬ path <+: e.1 := by
    intro hp
    rw [hasEntry_above hne hp (hasEntry_of_mem_entries hd he)] at h
    cases h
  simpa [← List.isPrefixOf_iff_prefix] using hp

/-! ## The list determines the catalog -/

/-- With distinct keys the list of the entries determines the catalog. -/
theorem eq_of_entries_eq {ms other : Members} (hd : ms.hasDistinctKeys = true)
    (ho : other.hasDistinctKeys = true) (h : ms.entries = other.entries) : ms = other := by
  induction ms using Members.induction generalizing other with
  | nil =>
    cases other with
    | nil => rfl
    | cons m other =>
      obtain ⟨key, w⟩ := m
      simp [entries_cons] at h
  | leaf key v ms hv ih =>
    cases other with
    | nil => simp [entries_cons] at h
    | cons m other =>
      obtain ⟨key', w⟩ := m
      rw [entries_cons, entries_cons, List.cons.injEq, Prod.mk.injEq, List.singleton_inj,
        Json.entry_of_leaf hv] at h
      obtain ⟨⟨rfl, hentry⟩, hlater⟩ := h
      obtain rfl := Json.eq_of_entry_eq_leaf hentry.symm
      rw [Json.entriesBelow_of_leaf hv] at hlater
      rw [ih (hasDistinctKeys_cons.1 hd).2.2 (hasDistinctKeys_cons.1 ho).2.2 hlater]
  | container key child ms ihc ih =>
    cases other with
    | nil => simp [entries_cons] at h
    | cons m other =>
      obtain ⟨key', w⟩ := m
      rw [entries_cons, entries_cons, List.cons.injEq, Prod.mk.injEq, List.singleton_inj] at h
      obtain ⟨⟨rfl, hentry⟩, h⟩ := h
      obtain ⟨child', rfl⟩ := Json.exists_obj_of_entry_eq_container hentry.symm
      obtain ⟨hk, hdc, hdms⟩ := hasDistinctKeys_cons.1 hd
      obtain ⟨hk', hdc', hdo⟩ := hasDistinctKeys_cons.1 ho
      obtain ⟨hchild, hlater⟩ :=
        under_append_inj (head?_ne_of_mem_entries hk) (head?_ne_of_mem_entries hk') h
      rw [ihc hdc hdc' hchild, ih hdms hdo hlater]

/-! ## Compact catalogs -/

/-- In a compact catalog every container has a leaf in it. -/
theorem exists_leaf_below {ms : Members} (hc : ms.isCompact = true) {path : List String}
    (h : (path, .container) ∈ ms.entries) :
    ∃ leaf ∈ ms.leaves, path <+: leaf.1 ∧ path ≠ leaf.1 := by
  induction ms using Members.induction generalizing path with
  | nil => cases h
  | leaf key v ms hv ih =>
    obtain ⟨-, -, hc⟩ := everyEntry_cons.1 hc
    rw [mem_entries_cons, Json.entry_of_leaf hv, Json.entriesBelow_of_leaf hv] at h
    rcases h with ⟨-, h⟩ | ⟨rest, -, h⟩ | h
    · cases h
    · cases h
    · obtain ⟨leaf, hl, hp⟩ := ih hc h
      exact ⟨leaf, by simp [hv, hl], hp⟩
  | container key child ms ihc ih =>
    obtain ⟨hchild, hcc, hc⟩ := everyEntry_cons.1 hc
    rcases mem_entries_cons.1 h with ⟨rfl, -⟩ | ⟨rest, rfl, hb⟩ | hlater
    · obtain ⟨leaf, hl⟩ := exists_mem_leaves hcc (by simpa [Json.isEmptyContainer] using hchild)
      obtain ⟨first, -, rest, hr⟩ := exists_cons_of_mem_leaves hl
      exact ⟨(key :: leaf.1, leaf.2), by simp [hl], by simp, by simp [hr]⟩
    · obtain ⟨leaf, hl, hp, hne⟩ := ihc hcc hb
      exact ⟨(key :: leaf.1, leaf.2), by simp [hl], List.cons_prefix_cons.2 ⟨rfl, hp⟩,
        by simpa using hne⟩
    · obtain ⟨leaf, hl, hp⟩ := ih hc hlater
      exact ⟨leaf, by simp [hl], hp⟩

/-- In a compact catalog every entry is a leaf or on the way to one. -/
theorem exists_leaf_of_hasEntry {ms : Members} (hc : ms.isCompact = true) {path : List String}
    (h : ms.hasEntry path = true) : ∃ leaf ∈ ms.leaves, path <+: leaf.1 := by
  obtain ⟨e, he⟩ := mem_entries_of_hasEntry h
  cases e with
  | container =>
    obtain ⟨leaf, hl, hp, -⟩ := exists_leaf_below hc he
    exact ⟨leaf, hl, hp⟩
  | leaf v => exact ⟨(path, v), mem_leaves_iff.2 he, List.prefix_refl path⟩

theorem hasEntry_iff_leaf {ms : Members} (hd : ms.hasDistinctKeys = true)
    (hc : ms.isCompact = true) {path : List String} (hne : path ≠ []) :
    ms.hasEntry path = true ↔ ∃ leaf ∈ ms.leaves, path <+: leaf.1 :=
  ⟨exists_leaf_of_hasEntry hc, fun ⟨_, hl, hp⟩ => hasEntry_of_leaf hd hl hne hp⟩

theorem container_mem_entries_iff {ms : Members} (hd : ms.hasDistinctKeys = true)
    (hc : ms.isCompact = true) {path : List String} (hne : path ≠ []) :
    (path, .container) ∈ ms.entries ↔ ∃ leaf ∈ ms.leaves, path <+: leaf.1 ∧ path ≠ leaf.1 := by
  refine ⟨exists_leaf_below hc, fun h => ?_⟩
  obtain ⟨leaf, hl, hp, hbelow⟩ := h
  obtain ⟨e, he⟩ := (hasEntry_iff_mem_entries hd).1 (hasEntry_of_leaf hd hl hne hp)
  cases e with
  | container => exact he
  | leaf v =>
    have hsame := eq_of_prefix_leaf hd hl (mem_leaves_iff.2 he) hp
    exact absurd (congrArg (·.1) hsame) hbelow

end Members

end CatalogAudit
