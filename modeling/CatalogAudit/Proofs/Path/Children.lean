/-
  CatalogAudit.Proofs.Path.Children — the components of what lies below a path.

  However a path is spelled, a name that is appended to it makes one component of its own
  (`components_child`): a slash at the end of the path or a `.` in it say nothing, and the
  start of the path stays as it is. So the names on the way down follow the components of the
  root one by one (`components_foldl_child`). Two ways down from one root are ordered like the
  lists of their names (`le_of_components`, `namesLe_iff`), and each leads from where the root
  leads to where its names say (`destination_foldl_child`).
-/

import CatalogAudit.Proofs.FileTree.FileName

namespace CatalogAudit

namespace Path

open Text

variable {p root : Path} {name : String}

/-- A text that may stand for one entry of a directory. -/
def IsName (name : String) : Prop :=
  name ≠ "" ∧ name ≠ "." ∧ name ≠ ".." ∧ '/' ∉ name.toList

instance (name : String) : Decidable (IsName name) := inferInstanceAs (Decidable (_ ∧ _))

/-! ## One name -/

theorem spelled_fst (p : Path) :
    p.spelled.1 =
      if p.text.toList.head? = some '/' then .root
      else if (splitOn '/' p.text.toList).head? = some ['.'] then .here
      else .plain := by
  unfold spelled
  split
  · next cs h => simp [h]
  · next h =>
    have hhead : p.text.toList.head? ≠ some '/' := by
      intro e
      obtain ⟨cs, hcs⟩ := List.head?_eq_some_iff.1 e
      exact h cs hcs
    rw [if_neg hhead]
    split
    · next segments hs => simp [hs]
    · next hs =>
      have hhere : (splitOn '/' p.text.toList).head? ≠ some ['.'] := by
        intro e
        obtain ⟨segments, hsegments⟩ := List.head?_eq_some_iff.1 e
        exact hs segments hsegments
      rw [if_neg hhere]

/-- A path and its child have a text in common, and then comes a slash; the path may lack it. -/
theorem exists_text_child_eq (hp : p.text ≠ "") (hn : IsName name) :
    ∃ stem, (p.text.toList = stem ∨ p.text.toList = stem ++ ['/']) ∧
      (p.child name).text.toList = stem ++ '/' :: name.toList := by
  obtain ⟨hne, -, -, hslash⟩ := hn
  have habsolute : (⟨name⟩ : Path).isAbsolute = false := by
    rw [isAbsolute, beq_eq_false_iff_ne]
    intro e
    exact hslash (List.mem_of_head? e)
  unfold child join
  rw [habsolute, if_neg (by simpa using hp)]
  split
  · next hlast =>
    obtain ⟨stem, hstem⟩ := List.getLast?_eq_some_iff.1 hlast
    exact ⟨stem, .inr hstem, by simp [hstem]⟩
  · exact ⟨p.text.toList, .inl rfl, by simp⟩

theorem head?_text_child (hp : p.text ≠ "") (hn : IsName name) :
    (p.child name).text.toList.head? = p.text.toList.head? := by
  have hne : p.text.toList ≠ [] := by
    intro e
    exact hp (String.toList_inj.1 e)
  obtain ⟨stem, hstem, hchild⟩ := exists_text_child_eq hp hn
  rw [hchild]
  rcases hstem with h | h
  · obtain ⟨c, cs, hcs⟩ := List.exists_cons_of_ne_nil hne
    rw [← h, hcs]
    rfl
  · rw [h]
    cases stem <;> rfl

/-- What comes after the text in common leaves the start as it is. -/
theorem spelled_fst_child (hp : p.text ≠ "") (hn : IsName name) :
    (p.child name).spelled.1 = p.spelled.1 := by
  obtain ⟨stem, hstem, hchild⟩ := exists_text_child_eq hp hn
  have hsegments : ∀ rest,
      (splitOn '/' (stem ++ '/' :: rest)).head? = (splitOn '/' stem).head? := by
    intro rest
    obtain ⟨first, more, hfirst⟩ := List.exists_cons_of_ne_nil (splitOn_ne_nil '/' stem)
    rw [splitOn_append_cons, hfirst]
    rfl
  have hfirst : (splitOn '/' p.text.toList).head? = (splitOn '/' stem).head? := by
    rcases hstem with h | h
    · rw [h]
    · rw [h, hsegments]
  rw [spelled_fst, spelled_fst, head?_text_child hp hn, hchild, hsegments, hfirst]

theorem filter_splitOn_name (hn : IsName name) :
    (splitOn '/' name.toList).filter (!isIdle ·) = [name.toList] := by
  obtain ⟨hne, hhere, -, hslash⟩ := hn
  have hspeaks : isIdle name.toList = false := by
    rw [isIdle, Bool.or_eq_false_iff, beq_eq_false_iff_ne, beq_eq_false_iff_ne]
    exact ⟨fun e => hne (String.toList_inj.1 e), fun e => hhere (String.toList_inj.1 e)⟩
  rw [splitOn_of_not_mem hslash]
  simp [hspeaks]

theorem components_child (hp : p.text ≠ "") (hn : IsName name) :
    (p.child name).components = p.components ++ [.name name] := by
  obtain ⟨stem, hstem, hchild⟩ := exists_text_child_eq hp hn
  have hsegments : (splitOn '/' p.text.toList).filter (!isIdle ·) =
      (splitOn '/' stem).filter (!isIdle ·) := by
    rcases hstem with h | h
    · rw [h]
    · rw [h, splitOn_append_cons, List.filter_append]
      simp [splitOn, isIdle]
  have hup : name.toList ≠ ['.', '.'] := fun e => hn.2.2.1 (String.toList_inj.1 e)
  rw [components_eq, components_eq, spelled_fst_child hp hn, hchild, splitOn_append_cons,
    List.filter_append, filter_splitOn_name hn, hsegments, List.map_append, List.append_assoc]
  simp [Component.ofSegment, hup]

theorem text_child_ne_empty (hn : IsName name) : (p.child name).text ≠ "" := by
  obtain ⟨before, htext⟩ := exists_text_child p name
  intro e
  rw [e] at htext
  exact hn.1 (String.toList_inj.1 (List.append_eq_nil_iff.1 htext.symm).2)

/-! ## The way down -/

variable {names others : List String}

theorem components_foldl_child (hroot : root.text ≠ "") (hn : ∀ name ∈ names, IsName name) :
    (names.foldl child root).components = root.components ++ names.map .name := by
  induction names generalizing root with
  | nil => simp
  | cons name names ih =>
    obtain ⟨hname, hnames⟩ := List.forall_mem_cons.1 hn
    rw [List.foldl_cons, ih (text_child_ne_empty hname) hnames, components_child hroot hname]
    simp

theorem foldl_child_inj (hroot : root.text ≠ "") (hn : ∀ name ∈ names, IsName name)
    (ho : ∀ name ∈ others, IsName name) (h : names.foldl child root = others.foldl child root) :
    names = others := by
  have hcomponents := congrArg components h
  rw [components_foldl_child hroot hn, components_foldl_child hroot ho,
    List.append_cancel_left_eq] at hcomponents
  exact (List.map_inj_right fun _ _ => Component.name.inj).1 hcomponents

/-! ## What the components say -/

theorem fileName?_of_components (h : p.components = root.components ++ names.map .name)
    (hne : names ≠ []) : p.fileName? = names.getLast? := by
  rw [fileName?, h, List.getLast?_append, List.getLast?_map]
  cases hlast : names.getLast? with
  | none => exact absurd (List.getLast?_eq_none_iff.1 hlast) hne
  | some name => rfl

theorem stripComponents_append (start rest : List Component) :
    stripComponents start (start ++ rest) = some rest := by
  induction start with
  | nil => rfl
  | cons s start ih => simp [stripComponents, ih]

theorem relativeTo_of_components (h : p.components = root.components ++ names.map .name) :
    p.relativeTo root = joined "/" names := by
  have htexts : (names.map Component.name).map Component.text = names := by
    rw [List.map_map]
    exact List.map_id names
  rw [relativeTo, h, stripComponents_append, Option.getD_some, htexts]

/-! ## Order -/

theorem componentsLe_append (start cs ds : List Component) :
    componentsLe (start ++ cs) (start ++ ds) = componentsLe cs ds := by
  induction start with
  | nil => rfl
  | cons s start ih => simp [componentsLe, ih]

/-- The order of two ways down from one root. -/
def namesLe (names others : List String) : Bool :=
  componentsLe (names.map .name) (others.map .name)

theorem le_of_components {q : Path} (hp : p.components = root.components ++ names.map .name)
    (hq : q.components = root.components ++ others.map .name) :
    p.le q = namesLe names others := by
  rw [le, hp, hq, componentsLe_append, namesLe]

theorem namesLe_iff : namesLe names others = true ↔ ¬ others < names := by
  induction names generalizing others with
  | nil => simp [namesLe, componentsLe]
  | cons name names ih =>
    cases others with
    | nil => simp [namesLe, componentsLe]
    | cons other others =>
      rw [namesLe, List.map_cons, List.map_cons, componentsLe, List.cons_lt_cons_iff]
      by_cases h : name = other
      · rw [if_pos (congrArg _ h), ← namesLe, ih, h]
        simp
      · rw [if_neg (by simpa using h)]
        simp [Component.le, Ne.symm h]

theorem namesLe_trans (names others more : List String) (h : namesLe names others = true)
    (h' : namesLe others more = true) : namesLe names more = true := by
  rw [namesLe_iff, List.not_lt] at h h' ⊢
  exact List.le_trans h h'

theorem namesLe_total (names others : List String) :
    (namesLe names others || namesLe others names) = true := by
  rw [Bool.or_eq_true, namesLe_iff, namesLe_iff, List.not_lt, List.not_lt]
  exact List.le_total names others

theorem lt_of_namesLe (h : namesLe names others = true) (hne : names ≠ others) :
    names < others := by
  rw [namesLe_iff, List.not_lt] at h
  refine Decidable.not_not.1 fun hlt => hne ?_
  exact List.le_antisymm h (List.not_lt.1 hlt)

/-- Ways down that are all different ascend when they are sorted. -/
theorem pairwise_mergeSort_namesLe {ways : List (List String)} (hd : ways.Nodup) :
    (ways.mergeSort namesLe).Pairwise (· < ·) := by
  have hsorted := List.pairwise_mergeSort namesLe_trans namesLe_total ways
  have hdistinct := (List.mergeSort_perm ways namesLe).nodup_iff.2 hd
  exact (hsorted.and hdistinct).imp fun h => lt_of_namesLe h.1 h.2

end Path

/-! ## Where the way leads -/

namespace FileTree

open CatalogAudit.Path Text

variable {t : FileTree} {p root : Path} {loc : Location} {name : String} {names : List String}

/-- The location that the segments of a path lead to, whatever stands on the way. -/
def destination (t : FileTree) (p : Path) : Location :=
  (Text.split '/' p.text).foldl step (t.start p)

theorem eq_destination_of_locate (h : t.locate p = .ok loc) : loc = t.destination p := by
  unfold locate at h
  split at h
  · cases h
  · exact eq_foldl_of_follow h

theorem destination_child (t : FileTree) (hp : p.text ≠ "") (hn : IsName name) :
    t.destination (p.child name) = t.destination p ++ [name] := by
  have hstart : t.start (p.child name) = t.start p := by
    rw [start, start, isAbsolute, isAbsolute, head?_text_child hp hn]
  have hstep : ∀ loc, step loc name = loc ++ [name] := by
    intro loc
    obtain ⟨hne, hhere, hup, -⟩ := hn
    simp [step, hne, hhere, hup]
  obtain ⟨stem, hstem, hchild⟩ := exists_text_child_eq hp hn
  have hdestination : t.destination p =
      ((splitOn '/' stem).map String.ofList).foldl step (t.start p) := by
    rw [destination, Text.split]
    rcases hstem with h | h
    · rw [h]
    · rw [h, splitOn_append_cons, List.map_append, List.foldl_append]
      rfl
  rw [hdestination, destination, hstart, Text.split, hchild, splitOn_append_cons,
    splitOn_of_not_mem hn.2.2.2, List.map_append, List.foldl_append, List.map_cons,
    String.ofList_toList]
  exact hstep _

theorem destination_foldl_child (t : FileTree) (hroot : root.text ≠ "")
    (hn : ∀ name ∈ names, IsName name) :
    t.destination (names.foldl child root) = t.destination root ++ names := by
  induction names generalizing root with
  | nil => simp
  | cons name names ih =>
    obtain ⟨hname, hnames⟩ := List.forall_mem_cons.1 hn
    rw [List.foldl_cons, ih (text_child_ne_empty hname) hnames, destination_child t hroot hname]
    simp

end FileTree

end CatalogAudit
