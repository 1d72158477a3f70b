/-
  CatalogAudit.Proofs.FileTree.Following — what is looked at on the way along a path.

  A path exists when its spelling is accepted, every location that it leaves is a directory
  and something stands where it leads to (`has_iff`). Along a path without `..` these locations
  go down name by name (`destination_eq`), and those on the way to an entry of a directory are
  those of the way up from it (`exists_destination_eq`).
-/

import CatalogAudit.Proofs.Path.Parents

namespace CatalogAudit

open Text

namespace Path

/-- The names among the components. -/
def names (p : Path) : List String :=
  p.components.filterMap fun
    | .name s => some s
    | _ => none

variable {p q dir : Path} {ns : List String}

theorem names_of_parent? (h : p.parent? = some q) :
    p.names = q.names ∨ ∃ name, p.names = q.names ++ [name] := by
  obtain ⟨⟨hne, -⟩, hq⟩ := parent?_eq_some h
  obtain ⟨before, last, hcomponents⟩ := List.eq_nil_or_concat p.components |>.resolve_left hne
  rw [List.concat_eq_append] at hcomponents
  rw [hcomponents, List.dropLast_concat] at hq
  rw [names, names, hcomponents, hq, List.filterMap_append]
  cases last with
  | name s => exact .inr ⟨s, rfl⟩
  | root => simp
  | here => simp
  | up => simp

/-- The way up goes through every start of the names. -/
theorem exists_names_eq (h : ns <+: p.names) : ∃ dir ∈ p :: p.parents, dir.names = ns := by
  induction hlength : p.components.length using Nat.strong_induction_on generalizing p with
  | _ length ih =>
    by_cases heq : ns = p.names
    · exact ⟨p, List.mem_cons_self, heq.symm⟩
    · cases hq : p.parent? with
      | none =>
        have hcomponents := components_of_not_hasParent (parent?_eq_none_iff.1 hq)
        have hnames : p.names = [] := by
          rw [names, hcomponents]
          split <;> rfl
        rw [hnames] at h heq
        exact absurd (List.prefix_nil.1 h) heq
      | some q =>
        have hq' : ns <+: q.names := by
          rcases names_of_parent? hq with hnames | ⟨name, hnames⟩
          · rwa [← hnames]
          · rw [hnames] at h heq
            exact (List.prefix_concat_iff.1 h).resolve_left heq
        have hshorter := length_components_of_parent? hq
        obtain ⟨dir, hdir, hns⟩ := ih _ (by omega) hq' rfl
        exact ⟨dir, List.mem_cons_of_mem _ (by rw [parents_eq, hq]; exact hdir), hns⟩

end Path

namespace FileTree

open CatalogAudit.Path

variable {t t' : FileTree} {p dir : Path} {loc l : Location} {name : String}

/-! ## Following -/

/-- Every location that is left is a directory, and no segment is too long. -/
structure Passes (t : FileTree) (loc : Location) (segments : List String) : Prop where
  short : ∀ segment ∈ segments, segment.utf8ByteSize ≤ nameMax
  directories : ∀ before segment after, segments = before ++ segment :: after →
    t.node? (before.foldl step loc) = some .directory

theorem passes_cons {segment : String} {rest : List String} :
    t.Passes loc (segment :: rest) ↔
      t.node? loc = some .directory ∧ segment.utf8ByteSize ≤ nameMax ∧
        t.Passes (step loc segment) rest := by
  constructor
  · intro h
    obtain ⟨hsegment, hrest⟩ := List.forall_mem_cons.1 h.short
    refine ⟨h.directories [] segment rest rfl, hsegment, hrest, fun before s after e => ?_⟩
    exact h.directories (segment :: before) s after (congrArg _ e)
  · rintro ⟨hloc, hsegment, hrest⟩
    refine ⟨List.forall_mem_cons.2 ⟨hsegment, hrest.short⟩, fun before s after e => ?_⟩
    cases before with
    | nil => exact hloc
    | cons first before =>
      obtain ⟨rfl, e'⟩ := List.cons.inj e
      exact hrest.directories before s after e'

theorem passes_nil : t.Passes loc [] := ⟨by simp, by simp⟩

theorem passes_append {segments rest : List String} :
    t.Passes loc (segments ++ rest) ↔
      t.Passes loc segments ∧ t.Passes (segments.foldl step loc) rest := by
  induction segments generalizing loc with
  | nil => simp [passes_nil]
  | cons segment segments ih =>
    rw [List.cons_append, passes_cons, passes_cons, ih, List.foldl_cons, and_assoc, and_assoc]

/-- Whether the way is free depends on the directories that are left and on nothing else. -/
theorem passes_congr {segments : List String}
    (h : ∀ before segment after, segments = before ++ segment :: after →
      (t'.node? (before.foldl step loc) = some .directory ↔
        t.node? (before.foldl step loc) = some .directory)) :
    t'.Passes loc segments ↔ t.Passes loc segments :=
  ⟨fun hp => ⟨hp.short, fun before segment after e =>
      (h before segment after e).1 (hp.directories before segment after e)⟩,
    fun hp => ⟨hp.short, fun before segment after e =>
      (h before segment after e).2 (hp.directories before segment after e)⟩⟩

theorem follow_eq_ok_iff {segments : List String} :
    t.follow loc segments = .ok l ↔ t.Passes loc segments ∧ l = segments.foldl step loc := by
  induction segments generalizing loc with
  | nil =>
    simp [follow, passes_nil, eq_comm]
  | cons segment rest ih =>
    rw [passes_cons, follow, List.foldl_cons]
    split
    · next hloc =>
      split
      · next hlong => simp [Nat.not_le.2 hlong]
      · next hshort => rw [ih]; simp [hloc, Nat.not_lt.1 hshort]
    · next hother hloc => simp [hloc, show _ ≠ Node.directory from hother]
    · next hloc => simp [hloc]

theorem locate_eq_ok_iff :
    t.locate p = .ok l ↔
      misspelling? p = none ∧ t.Passes (t.start p) (split '/' p.text) ∧ l = t.destination p := by
  unfold locate
  split
  · next h => simp [h]
  · next h => rw [follow_eq_ok_iff, destination]; simp [h]

/-- A path exists when it may be spelled so, the way is free and something stands at its end. -/
theorem has_iff :
    t.has p = true ↔
      misspelling? p = none ∧ t.Passes (t.start p) (split '/' p.text) ∧
        (t.node? (t.destination p)).isSome = true := by
  rw [has, look]
  cases h : t.locate p with
  | error e =>
    have hlost : ¬ (misspelling? p = none ∧ t.Passes (t.start p) (split '/' p.text)) := by
      rintro ⟨hspelled, hpasses⟩
      rw [locate_eq_ok_iff.2 ⟨hspelled, hpasses, rfl⟩] at h
      cases h
    exact iff_of_false (by simp [bind, Except.bind, Except.isOk, Except.toBool])
      fun ⟨hspelled, hpasses, _⟩ => hlost ⟨hspelled, hpasses⟩
  | ok loc =>
    obtain ⟨hspelled, hpasses, rfl⟩ := locate_eq_ok_iff.1 h
    simp only [bind, Except.bind, hspelled, hpasses, true_and]
    cases t.node? (t.destination p) <;> simp [Except.isOk, Except.toBool]

/-! ## Where the way goes -/

theorem foldl_step_of_not_up {segments : List (List Char)} (h : ['.', '.'] ∉ segments) :
    (segments.map String.ofList).foldl step loc =
      loc ++ (segments.filter (!isIdle ·)).map String.ofList := by
  induction segments generalizing loc with
  | nil => simp
  | cons segment rest ih =>
    rw [List.mem_cons, not_or] at h
    rw [List.map_cons, List.foldl_cons, step_ofList, if_neg (Ne.symm h.1), ih h.2]
    by_cases hidle : isIdle segment = true
    · simp [hidle]
    · simp [hidle]

theorem ofSegment_eq_up_iff {segment : List Char} :
    Component.ofSegment segment = .up ↔ segment = ['.', '.'] := by
  unfold Component.ofSegment
  split <;> simp_all

theorem up_mem_components_iff :
    Component.up ∈ p.components ↔ ['.', '.'] ∈ splitOn '/' p.text.toList := by
  have hstart : Component.up ∉ p.spelled.1.components := by
    cases p.spelled.1 <;> simp [Start.components]
  rw [components_eq, List.mem_append, or_iff_right hstart, List.mem_map]
  constructor
  · rintro ⟨segment, hs, hup⟩
    exact ofSegment_eq_up_iff.1 hup ▸ List.mem_of_mem_filter hs
  · intro h
    exact ⟨_, List.mem_filter.2 ⟨h, rfl⟩, ofSegment_eq_up_iff.2 rfl⟩

theorem names_eq (h : .up ∉ p.components) :
    p.names = ((splitOn '/' p.text.toList).filter (!isIdle ·)).map String.ofList := by
  have hup := mt up_mem_components_iff.2 h
  rw [names, components_eq, List.filterMap_append, List.filterMap_map]
  have hstart : ∀ start : Start, start.components.filterMap (fun
      | Component.name s => some s
      | _ => none) = [] := by
    intro start
    cases start <;> rfl
  rw [hstart, List.nil_append, ← List.filterMap_eq_map]
  refine List.filterMap_congr fun segment hs => ?_
  have hne : segment ≠ ['.', '.'] := fun e => hup (e ▸ List.mem_of_mem_filter hs)
  simp [Component.ofSegment, hne]

theorem destination_eq (t : FileTree) (h : .up ∉ p.components) :
    t.destination p = t.start p ++ p.names := by
  rw [destination, split, foldl_step_of_not_up (mt up_mem_components_iff.2 h), names_eq h]

theorem start_eq_of_mem (t : FileTree) (h : dir ∈ p :: p.parents) : t.start dir = t.start p := by
  rw [start, start, isAbsolute_of_mem h]

theorem child_of_empty (h : dir.text = "") (name : String) : dir.child name = ⟨name⟩ := by
  simp [child, Path.join, h]

/-- The path of an entry has the segments of the directory, but for an empty one at the end, and
then its name. -/
theorem exists_split_child (dir : Path) (hn : IsName name) :
    ∃ segments idle : List (List Char), splitOn '/' dir.text.toList = segments ++ idle ∧
      (∀ segment ∈ idle, isIdle segment = true) ∧
      split '/' (dir.child name).text = segments.map String.ofList ++ [name] := by
  by_cases hdir : dir.text = ""
  · refine ⟨[], [[]], by rw [hdir]; rfl, by simp [isIdle], ?_⟩
    rw [child_of_empty hdir, split, splitOn_of_not_mem hn.2.2.2]
    simp
  · obtain ⟨stem, hstem, hchild⟩ := exists_text_child_eq hdir hn
    have hsplit : split '/' (dir.child name).text =
        (splitOn '/' stem).map String.ofList ++ [name] := by
      rw [split, hchild, splitOn_append_cons, splitOn_of_not_mem hn.2.2.2]
      simp
    rcases hstem with h | h
    · exact ⟨splitOn '/' stem, [], by rw [h, List.append_nil], by simp, hsplit⟩
    · exact ⟨splitOn '/' stem, [[]], by rw [h, splitOn_append_cons]; rfl, by simp [isIdle], hsplit⟩

theorem start_child (t : FileTree) (dir : Path) (hn : IsName name) :
    t.start (dir.child name) = t.start dir := by
  by_cases hdir : dir.text = ""
  · have hslash : name.toList.head? ≠ some '/' := fun e => hn.2.2.2 (List.mem_of_head? e)
    rw [child_of_empty hdir, start, start, isAbsolute, isAbsolute, hdir]
    simp [hslash]
  · rw [start, start, isAbsolute, isAbsolute, head?_text_child hdir hn]

/-- An entry of the directory that the empty path names is found in it, too. -/
theorem destination_child_of_isName (t : FileTree) (hn : IsName name) :
    t.destination (dir.child name) = t.destination dir ++ [name] := by
  by_cases hdir : dir.text = ""
  · have hempty : t.destination dir = t.start dir := by
      rw [destination, hdir]
      rfl
    have hstart := start_child t dir hn
    rw [child_of_empty hdir] at hstart ⊢
    rw [hempty, destination, hstart, split, splitOn_of_not_mem hn.2.2.2]
    obtain ⟨hne, hhere, hup, -⟩ := hn
    simp [step, hne, hhere, hup]
  · exact destination_child t hdir hn

/-- What leads to a directory leads to its entries, unless the path becomes too long. -/
theorem locate_child (hdir : t.locate dir = .ok loc) (hloc : t.node? loc = some .directory)
    (hn : IsName name) (hspelled : misspelling? (dir.child name) = none)
    (hshort : name.utf8ByteSize ≤ nameMax) :
    t.locate (dir.child name) = .ok (loc ++ [name]) := by
  obtain ⟨-, hpasses, rfl⟩ := locate_eq_ok_iff.1 hdir
  obtain ⟨segments, idle, hsplit, hidle, hchild⟩ := exists_split_child dir hn
  have hdestination :
      t.destination dir = (segments.map String.ofList).foldl step (t.start dir) := by
    rw [destination, split, hsplit, List.map_append, List.foldl_append, foldl_step_of_idle hidle]
  rw [split, hsplit, List.map_append, passes_append] at hpasses
  refine locate_eq_ok_iff.2 ⟨hspelled, ?_, (destination_child_of_isName t hn).symm⟩
  rw [hchild, start_child t dir hn, passes_append, ← hdestination]
  exact ⟨hpasses.1, passes_cons.2 ⟨hloc, hshort, passes_nil⟩⟩

/-- On the way to an entry of a directory only directories of the way up are left. -/
theorem exists_destination_eq (t : FileTree) (h : .up ∉ dir.components) (hn : IsName name)
    {before after : List String} {segment : String}
    (hsplit : split '/' (dir.child name).text = before ++ segment :: after) :
    ∃ above ∈ dir :: dir.parents,
      before.foldl step (t.start (dir.child name)) = t.destination above := by
  obtain ⟨segments, idle, hdir, -, hchild⟩ := exists_split_child dir hn
  have hbefore : before <+: segments.map String.ofList := by
    rw [hchild] at hsplit
    have hprefix : before <+: segments.map String.ofList ++ [name] := ⟨_, hsplit.symm⟩
    refine (List.prefix_concat_iff.1 hprefix).resolve_left fun e => ?_
    rw [e] at hsplit
    simp at hsplit
  obtain ⟨left, hleft, rfl⟩ := List.prefix_map_iff.1 hbefore
  have hleft : left <+: splitOn '/' dir.text.toList :=
    hleft.trans (hdir ▸ List.prefix_append segments idle)
  have hup : ['.', '.'] ∉ left := fun hm => mt up_mem_components_iff.2 h (hleft.subset hm)
  have hnames : (left.filter (!isIdle ·)).map String.ofList <+: dir.names := by
    rw [names_eq h]
    exact (hleft.filter _).map _
  obtain ⟨above, habove, hns⟩ := exists_names_eq hnames
  refine ⟨above, habove, ?_⟩
  have hup' : Component.up ∉ above.components :=
    fun hm => h ((prefix_components habove).subset hm)
  rw [foldl_step_of_not_up hup, destination_eq t hup', hns, start_child t dir hn,
    start_eq_of_mem t habove]

end FileTree

end CatalogAudit
