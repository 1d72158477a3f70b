/-
  CatalogAudit.Proofs.Catalog.KeyLookup — the keys that a catalog lists and the keys that it
  finds.

  The leaves stand in the order of the document: of two of them the first is under the earlier
  key where their paths part (`pairwise_precedes_leaves`).

  Plain keys. A path and its dotted key tell each other, so a catalog lists one key for each
  leaf. It finds these, the keys above them, and those of containers without a leaf
  (`plain_keys_are_exact`).

  Any keys. A dotted key leads to the path that is left when the empty keys that its own path
  starts with are dropped and every other key is split at its dots (`keySegments_dottedKey_eq`).
  Where that is the path itself the key is found; otherwise only when another entry happens to
  stand there (`listed_keys_found_iff`). So a catalog may not find a key that it lists
  (`listed_key_may_be_missing`).
-/

import CatalogAudit.Catalog.Basic
import CatalogAudit.Proofs.Catalog.DottedKey
import CatalogAudit.Proofs.Catalog.EntryList
import CatalogAudit.Proofs.Json.DistinctKeys

namespace CatalogAudit

open Text

namespace Members

/-! ## The value at a path -/

/-- The container at a path has no leaf, however deep. -/
def IsHollow (ms : Members) (path : List String) : Prop :=
  ∃ child : Members, ms.valueAt? path = some (.obj child) ∧
    ∀ (rest : List String) (v : Json), child.valueAt? rest = some v → v.isContainer = true

theorem valueAt?_append {ms child : Members} {path : List String}
    (h : ms.valueAt? path = some (.obj child)) {rest : List String} (hne : rest ≠ []) :
    ms.valueAt? (path ++ rest) = child.valueAt? rest := by
  obtain ⟨next, more, rfl⟩ := List.exists_cons_of_ne_nil hne
  induction path generalizing ms with
  | nil => cases h
  | cons key path ih =>
    cases path with
    | nil =>
      have hvalue : ms.value? key = some (.obj child) := h
      simp only [List.cons_append, List.nil_append, valueAt?, hvalue]
    | cons key' path =>
      simp only [List.cons_append, valueAt?] at h ih ⊢
      split at h
      · exact ih h
      · cases h

theorem ne_nil_of_valueAt? {ms : Members} {path : List String} {v : Json}
    (h : ms.valueAt? path = some v) : path ≠ [] := by
  rintro rfl
  cases h

/-! ## The order of the document -/

/-- Where two paths part, in the container that they have both come to, the first one goes on
with the earlier key. -/
inductive Precedes : Members → List String → List String → Prop
  | here {ms : Members} {key other : String} {rest more : List String} :
      [key, other].Sublist ms.names → Precedes ms (key :: rest) (other :: more)
  | inside {ms child : Members} {key : String} {rest more : List String} :
      ms.value? key = some (.obj child) → Precedes child rest more →
        Precedes ms (key :: rest) (key :: more)

/-- A member in front changes nothing for the paths that go on with other keys. -/
theorem Precedes.later {key : String} (v : Json) {ms : Members} {path other : List String}
    (hk : key ∉ ms.names) (h : ms.Precedes path other) : Precedes ((key, v) :: ms) path other := by
  cases h with
  | here hs => exact .here (hs.cons key)
  | @inside _ child first rest more hchild hbelow =>
    have hname : first ∈ ms.names := List.mem_map_of_mem (Assoc.mem_of_value? hchild)
    have hne : key ≠ first := fun e => hk (e ▸ hname)
    refine .inside ?_ hbelow
    rw [Assoc.value?_cons, if_neg hne, hchild]

theorem pairwise_precedes_leaves {ms : Members} (hd : ms.hasDistinctKeys = true) :
    ms.leaves.Pairwise fun leaf other => ms.Precedes leaf.1 other.1 := by
  have hfirst : ∀ {key : String} {v : Json} {ms : Members} (rest : List String),
      ∀ other ∈ ms.leaves, Precedes ((key, v) :: ms) (key :: rest) other.1 := by
    intro key v ms rest other ho
    obtain ⟨name, hname, more, hmore⟩ := exists_cons_of_mem_leaves ho
    rw [hmore]
    exact .here ((List.singleton_sublist.2 hname).cons_cons key)
  induction ms using Members.induction with
  | nil => exact .nil
  | leaf key v ms hv ih =>
    obtain ⟨hk, -, hd⟩ := hasDistinctKeys_cons.1 hd
    rw [leaves_cons_leaf hv]
    exact List.pairwise_cons.2 ⟨hfirst [], (ih hd).imp (Precedes.later v hk)⟩
  | container key child ms ihc ih =>
    obtain ⟨hk, hdc, hd⟩ := hasDistinctKeys_cons.1 hd
    rw [leaves_cons_obj, List.pairwise_append]
    refine ⟨?_, (ih hd).imp (Precedes.later _ hk), fun leaf hl other ho => ?_⟩
    · have hchild : Assoc.value? ((key, Json.obj child) :: ms) key = some (.obj child) := by
        rw [Assoc.value?_cons, if_pos rfl]
      exact List.pairwise_map.2 ((ihc hdc).imp fun h => .inside hchild h)
    · obtain ⟨below, -, rfl⟩ := List.mem_map.1 hl
      exact hfirst below.1 other ho

/-! ## Plain keys -/

theorem everyEntry_of_mem {q : String → Json → Bool} {ms : Members} (h : ms.everyEntry q = true)
    {key : String} {v : Json} (hm : (key, v) ∈ ms) : q key v = true ∧ v.everyEntry q = true := by
  induction ms with
  | nil => cases hm
  | cons m ms ih =>
    obtain ⟨hq, hv, h⟩ := everyEntry_cons.1 h
    rcases List.mem_cons.1 hm with rfl | hm
    · exact ⟨hq, hv⟩
    · exact ih h hm

theorem isPlainKey_of_valueAt? {ms : Members} (hp : ms.hasPlainKeys = true) {path : List String}
    {v : Json} (h : ms.valueAt? path = some v) : ∀ key ∈ path, isPlainKey key = true := by
  induction path generalizing ms with
  | nil => simp
  | cons key rest ih =>
    rw [List.forall_mem_cons]
    cases rest with
    | nil => exact ⟨(everyEntry_of_mem hp (Assoc.mem_of_value? h)).1, by simp⟩
    | cons next rest =>
      simp only [valueAt?] at h
      split at h
      · next child hchild =>
        obtain ⟨hkey, hbelow⟩ := everyEntry_of_mem hp (Assoc.mem_of_value? hchild)
        exact ⟨hkey, ih hbelow h⟩
      · cases h

theorem keySegments_of_valueAt? {ms : Members} (hp : ms.hasPlainKeys = true) {path : List String}
    {v : Json} (h : ms.valueAt? path = some v) : keySegments (joined "." path) = path := by
  have hsegments : keySegments (dottedKey path) = path :=
    keySegments_dottedKey (ne_nil_of_valueAt? h) (isPlainKey_of_valueAt? hp h)
  have hjoined := joined_keySegments (dottedKey path)
  rw [hsegments] at hjoined
  rw [hjoined, hsegments]

end Members

namespace Catalog

open Members

variable {c : Catalog}

/-- A key that leads to a leaf, or to what stands above one, is found. -/
theorem hasKey_of_leaf {key : String} {leaf : List String × Json} (hl : leaf ∈ c.root.leaves)
    (hp : keySegments key <+: leaf.1) : c.hasKey key = true :=
  hasEntry_of_leaf c.distinct hl (keySegments_ne_nil key) hp

theorem keys_eq_joined (hp : c.root.hasPlainKeys = true) :
    c.keys = (c.root.leaves.map (·.1)).map (joined ".") := by
  rw [keys, leafKeys, List.map_map]
  refine List.map_congr_left fun leaf hl => ?_
  have hjoined := joined_keySegments (dottedKey leaf.1)
  rw [keySegments_leaf hp hl] at hjoined
  exact hjoined.symm

section
variable (hp : c.root.hasPlainKeys = true)
include hp

theorem mem_keys_iff {key : String} :
    key ∈ c.keys ↔ ∃ v, (keySegments key, v) ∈ c.root.leaves := by
  rw [keys_eq_joined hp, List.map_map, List.mem_map]
  constructor
  · rintro ⟨leaf, hl, rfl⟩
    have hvalue := ((mem_leaves_iff_valueAt? c.distinct).1 hl).1
    refine ⟨leaf.2, ?_⟩
    rw [Function.comp_apply, keySegments_of_valueAt? hp hvalue]
    exact hl
  · rintro ⟨v, hl⟩
    exact ⟨_, hl, joined_keySegments key⟩

theorem nodup_keys : c.keys.Nodup := by
  rw [keys_eq_joined hp, List.map_map]
  refine List.pairwise_map.2 ((pairwise_leaves c.distinct).imp_of_mem ?_)
  intro leaf other hl ho hapart hsame
  have hleaf := keySegments_of_valueAt? hp ((mem_leaves_iff_valueAt? c.distinct).1 hl).1
  have hother := keySegments_of_valueAt? hp ((mem_leaves_iff_valueAt? c.distinct).1 ho).1
  apply hapart.1
  rw [← hleaf, ← hother]
  exact congrArg keySegments hsame ▸ List.prefix_refl _

/-- A key that the catalog finds leads to a leaf, to a container with a leaf or to one without. -/
theorem hasKey_cases {key : String} (h : c.hasKey key = true) :
    key ∈ c.keys ∨ (∃ longer ∈ c.keys, (key ++ ".").toList <+: longer.toList) ∨
      c.root.IsHollow (keySegments key) := by
  obtain ⟨v, hv⟩ := hasEntry_iff_valueAt?.1 h
  cases hc : v.isContainer with
  | false => exact .inl ((mem_keys_iff hp).2 ⟨v, (mem_leaves_iff_valueAt? c.distinct).2 ⟨hv, hc⟩⟩)
  | true =>
    obtain ⟨child, rfl⟩ := Json.exists_obj_of_isContainer hc
    by_cases hleaf : ∃ (rest : List String) (w : Json),
        valueAt? child rest = some w ∧ w.isContainer = false
    · obtain ⟨rest, w, hw, hleaf⟩ := hleaf
      have hrest := ne_nil_of_valueAt? hw
      rw [← valueAt?_append hv hrest] at hw
      refine .inr (.inl ⟨joined "." (keySegments key ++ rest), ?_, (joined "." rest).toList, ?_⟩)
      · refine (mem_keys_iff hp).2 ⟨w, (mem_leaves_iff_valueAt? c.distinct).2 ⟨?_, hleaf⟩⟩
        rwa [keySegments_of_valueAt? hp hw]
      · rw [joined_append "." (keySegments_ne_nil key) hrest, joined_keySegments]
        simp
    · refine .inr (.inr ⟨child, hv, fun rest w hw => ?_⟩)
      rw [← Bool.not_eq_false]
      exact fun hf => hleaf ⟨rest, w, hw, hf⟩

/-- A key before a dot in a key of the catalog leads to what stands above its leaf. -/
theorem hasKey_of_longer {key longer : String} (hl : longer ∈ c.keys)
    (h : (key ++ ".").toList <+: longer.toList) : c.hasKey key = true := by
  obtain ⟨more, hmore⟩ := h
  obtain ⟨v, hleaf⟩ := (mem_keys_iff hp).1 hl
  have hlonger : longer = key ++ "." ++ String.ofList more := by
    apply String.toList_inj.1
    rw [← hmore]
    simp
  refine hasKey_of_leaf hleaf ?_
  rw [hlonger, keySegments_append]
  exact List.prefix_append _ _

/-- Where all keys are plain, a catalog lists one key for each leaf, in order, and it finds these
keys, those above them, and those of containers without a leaf. -/
theorem plain_keys_are_exact :
    (∃ paths : List (List String), c.keys = paths.map (joined ".") ∧
      paths.Pairwise c.root.Precedes ∧
      ∀ path, path ∈ paths ↔ ∃ v, c.root.valueAt? path = some v ∧ v.isContainer = false) ∧
    c.keys.Nodup ∧
    ∀ key, c.hasKey key = true ↔
      key ∈ c.keys ∨ (∃ longer ∈ c.keys, (key ++ ".").toList <+: longer.toList) ∨
        ∃ path, joined "." path = key ∧ c.root.IsHollow path := by
  refine ⟨⟨c.root.leaves.map (·.1), keys_eq_joined hp, ?_, fun path => ?_⟩,
    nodup_keys hp, fun key => ⟨fun h => ?_, ?_⟩⟩
  · exact List.pairwise_map.2 (pairwise_precedes_leaves c.distinct)
  · constructor
    · intro h
      obtain ⟨leaf, hl, rfl⟩ := List.mem_map.1 h
      exact ⟨leaf.2, (mem_leaves_iff_valueAt? c.distinct).1 hl⟩
    · rintro ⟨v, h⟩
      exact List.mem_map.2 ⟨(path, v), (mem_leaves_iff_valueAt? c.distinct).2 h, rfl⟩
  · rcases hasKey_cases hp h with h | h | h
    · exact .inl h
    · exact .inr (.inl h)
    · exact .inr (.inr ⟨keySegments key, joined_keySegments key, h⟩)
  · rintro (h | ⟨longer, hl, h⟩ | ⟨path, rfl, child, hchild, -⟩)
    · obtain ⟨v, hleaf⟩ := (mem_keys_iff hp).1 h
      exact hasKey_of_leaf hleaf (List.prefix_refl _)
    · exact hasKey_of_longer hp hl h
    · rw [hasKey, keySegments_of_valueAt? hp hchild]
      exact hasEntry_iff_valueAt?.2 ⟨_, hchild⟩

end

/-- Containers within a container, none of them with a leaf, beside leaves of all depths. -/
def linksCatalog : Catalog :=
  ⟨"en", ⟨"en.json"⟩, [("common", .obj [("title", .str "Title"),
    ("footer", .obj [("links", .obj []), ("more", .obj [("links", .obj [])])])]),
    ("tags", .arr [.obj [("", .null)]]), ("count", .num (.int 3))], by decide⟩

/-- The container `common.footer` is found, though no key of a leaf goes on from it. -/
theorem plain_keys_are_exact_links :
    linksCatalog.root.hasPlainKeys = true ∧ linksCatalog.keys.Nodup ∧
      linksCatalog.hasKey "common" = true ∧ linksCatalog.hasKey "comm" = false ∧
      ∃ path, joined "." path = "common.footer" ∧ linksCatalog.root.IsHollow path := by
  have hp : linksCatalog.root.hasPlainKeys = true := by decide
  have hkeys : linksCatalog.keys = ["common.title", "tags", "count"] := by decide
  obtain ⟨-, hnodup, hfound⟩ := plain_keys_are_exact hp
  rw [hkeys] at hfound
  refine ⟨hp, hnodup, (hfound _).2 (.inr (.inl ⟨"common.title", by decide, by decide⟩)),
    by decide, ?_⟩
  rcases (hfound "common.footer").1 (by decide) with h | h | h
  · exact absurd h (by decide)
  · exact absurd h (by decide)
  · exact h

end Catalog

/-! ## Any keys -/

/-- The path that the dotted key of a path leads to: the path without the empty keys that it
starts with, and with every other key split at its dots. -/
def spelledPath (path : List String) : List String :=
  match path.dropWhile (· = "") with
  | [] => [""]
  | rest => rest.flatMap keySegments

/-- A path of keys without dots that does not start with an empty key, unless this is all. -/
def IsSpelledOut (path : List String) : Prop :=
  (path = [""] ∨ path.head? ≠ some "") ∧ ∀ key ∈ path, '.' ∉ key.toList

instance (path : List String) : Decidable (IsSpelledOut path) :=
  inferInstanceAs (Decidable (_ ∧ _))

theorem keySegments_dottedKey_eq (path : List String) :
    keySegments (dottedKey path) = spelledPath path := by
  induction path with
  | nil => rfl
  | cons key rest ih =>
    by_cases hk : key = ""
    · subst hk
      exact ih
    · have hdrop : (key :: rest).dropWhile (· = "") = key :: rest := by simp [hk]
      rw [dottedKey, List.foldl_cons, if_pos rfl, keySegments_foldl hk, spelledPath, hdrop]
      rfl

theorem noDot_of_mem_keySegments {key segment : String} (h : segment ∈ keySegments key) :
    '.' ∉ segment.toList := by
  obtain ⟨piece, hpiece, rfl⟩ := List.mem_map.1 h
  rw [String.toList_ofList]
  exact not_mem_of_mem_splitOn hpiece

theorem spelledPath_eq_self_iff {path : List String} (hne : path ≠ []) :
    spelledPath path = path ↔ IsSpelledOut path := by
  obtain ⟨first, rest, rfl⟩ := List.exists_cons_of_ne_nil hne
  constructor
  · intro h
    have hdots : ∀ key ∈ first :: rest, '.' ∉ key.toList := by
      intro key hk
      rw [← h, ← keySegments_dottedKey_eq] at hk
      exact noDot_of_mem_keySegments hk
    refine ⟨?_, hdots⟩
    by_cases hf : first = ""
    · -- what is dropped in front would be missing
      subst hf
      left
      cases hdrop : rest.dropWhile (· = "") with
      | nil =>
        have hspelled : spelledPath ("" :: rest) = [""] := by simp [spelledPath, hdrop]
        rw [← h, hspelled]
      | cons key more =>
        have hsuffix : key :: more <:+ rest := hdrop ▸ List.dropWhile_suffix _
        have hspelled : spelledPath ("" :: rest) = (key :: more).flatMap keySegments := by
          simp [spelledPath, hdrop]
        rw [hspelled, flatMap_keySegments fun k hk =>
          hdots k (List.mem_cons_of_mem _ (hsuffix.subset hk))] at h
        have hlength := hsuffix.length_le
        rw [h, List.length_cons] at hlength
        omega
    · right
      simpa using hf
  · rintro ⟨hfirst, hdots⟩
    by_cases hf : first = ""
    · subst hf
      simp at hfirst
      subst hfirst
      rfl
    · have hdrop : (first :: rest).dropWhile (· = "") = first :: rest := by simp [hf]
      rw [spelledPath, hdrop]
      exact flatMap_keySegments hdots

namespace Catalog

open Members

/-- Which of the keys that a catalog lists it finds: those of leaves whose paths are spelled out,
and those that happen to lead to another entry. -/
theorem listed_keys_found_iff (c : Catalog) :
    (∀ leaf ∈ c.root.leaves, dottedKey leaf.1 ∈ c.keys ∧
      (c.hasKey (dottedKey leaf.1) = true ↔ IsSpelledOut leaf.1 ∨
        ∃ v, spelledPath leaf.1 ≠ leaf.1 ∧ c.root.valueAt? (spelledPath leaf.1) = some v)) ∧
    ((∀ leaf ∈ c.root.leaves, IsSpelledOut leaf.1) → ∀ key ∈ c.keys, c.hasKey key = true) := by
  have hfound : ∀ leaf ∈ c.root.leaves, (c.hasKey (dottedKey leaf.1) = true ↔
      IsSpelledOut leaf.1 ∨
        ∃ v, spelledPath leaf.1 ≠ leaf.1 ∧ c.root.valueAt? (spelledPath leaf.1) = some v) := by
    intro leaf hl
    have hvalue := ((mem_leaves_iff_valueAt? c.distinct).1 hl).1
    rw [hasKey, keySegments_dottedKey_eq, hasEntry_iff_valueAt?,
      ← spelledPath_eq_self_iff (ne_nil_of_valueAt? hvalue)]
    constructor
    · rintro ⟨v, hv⟩
      by_cases hself : spelledPath leaf.1 = leaf.1
      · exact .inl hself
      · exact .inr ⟨v, hself, hv⟩
    · rintro (hself | ⟨v, -, hv⟩)
      · exact ⟨leaf.2, by rw [hself]; exact hvalue⟩
      · exact ⟨v, hv⟩
  refine ⟨fun leaf hl => ⟨List.mem_map_of_mem hl, hfound leaf hl⟩, fun hspelled key hk => ?_⟩
  obtain ⟨leaf, hl, rfl⟩ := List.mem_map.1 hk
  exact (hfound leaf hl).2 (.inl (hspelled leaf hl))

/-- A key with a dot in it and empty keys, one of them at the root. -/
def releaseText : String :=
  "\x7b\"log\": \x7b\"\": \"Log\", \"v1.0\": \"First\"\x7d, \"\": \x7b\"title\": \"News\"\x7d, \"title\": \"Home\"\x7d"

def releaseTree : FileTree := ⟨[], [(["en.json"], .file releaseText.toUTF8)]⟩

def releaseCatalog : Catalog :=
  ⟨"en", ⟨"./en.json"⟩, [("log", .obj [("", .str "Log"), ("v1.0", .str "First")]),
    ("", .obj [("title", .str "News")]), ("title", .str "Home")], by decide⟩

theorem load_releaseTree : load releaseTree ⟨"."⟩ "en" = .ok releaseCatalog := rfl

/-- The empty key in `log` is spelled out; the key of the one at the root leads to `title`. -/
theorem listed_keys_found_iff_release :
    load releaseTree ⟨"."⟩ "en" = .ok releaseCatalog ∧ releaseCatalog.hasKey "log." = true ∧
      releaseCatalog.hasKey "log.v1.0" = false ∧
      (["", "title"], .str "News") ∈ releaseCatalog.root.leaves ∧ ¬ IsSpelledOut ["", "title"] ∧
      releaseCatalog.hasKey "title" = true := by
  obtain ⟨hfound, -⟩ := listed_keys_found_iff releaseCatalog
  refine ⟨load_releaseTree, ?_, ?_, .tail _ (.tail _ (.head _)), by decide, ?_⟩
  · exact (hfound (["log", ""], .str "Log") (.head _)).2.2 (.inl (by decide))
  · rw [Bool.eq_false_iff]
    intro h
    rcases (hfound (["log", "v1.0"], .str "First") (.tail _ (.head _))).2.1 h with h | ⟨v, -, hv⟩
    · exact absurd h (by decide)
    · cases hv
  · exact (hfound (["", "title"], .str "News") (.tail _ (.tail _ (.head _)))).2.2
      (.inr ⟨.str "Home", by decide, rfl⟩)

/-- A catalog that is loaded may list a key that it does not find. -/
theorem listed_key_may_be_missing :
    ¬ ∀ (tree : FileTree) (dir : Path) (locale : String) (c : Catalog),
      load tree dir locale = .ok c → ∀ key ∈ c.keys, c.hasKey key = true := by
  intro h
  have hmissing : releaseCatalog.hasKey "log.v1.0" = false := by decide
  rw [h releaseTree ⟨"."⟩ "en" releaseCatalog load_releaseTree "log.v1.0" (by decide)] at hmissing
  cases hmissing

end Catalog

end CatalogAudit
