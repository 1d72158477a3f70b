/-
  CatalogAudit.Proofs.Path.Parents — the way up from a path.

  The parent of a path has its components but the last one; only the empty path and the root
  have none (`parent?_eq_some`, `parent?_eq_none_iff`). A path has fewer components than the
  steps that `parents` may take, so the parents go on until there is none left (`parents_eq`):
  with the path before them they are the way up from it (`isWayUp_parents`).
-/

import CatalogAudit.Proofs.Path.Children
import Mathlib.Data.List.Infix

namespace CatalogAudit.Path

open Text

variable {p q : Path} {start : Start} {segments : List (List Char)}

/-! ## Spelling -/

/-- Segments that may follow `start` in a text: none holds a slash, and the first one is no start
of its own. -/
structure Follows (start : Start) (segments : List (List Char)) : Prop where
  noSlash : ∀ segment ∈ segments, '/' ∉ segment
  speaks : start = .plain → ∀ segment, segments.head? = some segment → isIdle segment = false

theorem Follows.shorten {more : List (List Char)} (h : Follows start more)
    (hp : segments <+: more) : Follows start segments := by
  refine ⟨fun segment hs => h.noSlash segment (hp.subset hs), fun hstart segment hhead => ?_⟩
  obtain ⟨rest, rfl⟩ := hp
  refine h.speaks hstart segment ?_
  rw [List.head?_append, hhead]
  rfl

theorem follows_spelled (h : p.text ≠ "") : Follows p.spelled.1 p.spelled.2 := by
  have hne : p.text.toList ≠ [] := fun e => h (String.toList_inj.1 e)
  unfold spelled
  split
  · exact ⟨fun _ hs => not_mem_of_mem_splitOn hs, fun e => nomatch e⟩
  · next hslash =>
    have hpieces : ∀ piece ∈ splitOn '/' p.text.toList, '/' ∉ piece :=
      fun _ hs => not_mem_of_mem_splitOn hs
    split
    · next segments hs =>
      rw [hs] at hpieces
      exact ⟨(List.forall_mem_cons.1 hpieces).2, fun e => nomatch e⟩
    · next hhere =>
      refine ⟨hpieces, fun _ segment hhead => ?_⟩
      obtain ⟨pieces, hsplit⟩ := List.head?_eq_some_iff.1 hhead
      have htext := join_splitOn '/' p.text.toList
      rw [show splitOn '/' p.text.toList = segment :: pieces from hsplit] at htext
      rw [isIdle, Bool.or_eq_false_iff, beq_eq_false_iff_ne, beq_eq_false_iff_ne]
      refine ⟨?_, ?_⟩
      · -- with an empty first segment the text is empty or starts with a slash
        rintro rfl
        cases pieces with
        | nil => exact hne htext.symm
        | cons next pieces => exact hslash _ htext.symm
      · rintro rfl
        exact hhere pieces hsplit

theorem spelled_ofSpelled (h : Follows start segments) (hne : segments ≠ []) :
    (ofSpelled start segments).spelled = (start, segments) := by
  have hsplit : splitOn '/' (Text.join ['/'] segments) = segments := splitOn_join hne h.noSlash
  cases start with
  | root => simp [ofSpelled, spelled, hsplit]
  | here =>
    have hhere : splitOn '/' ('.' :: '/' :: Text.join ['/'] segments) = ['.'] :: segments := by
      simp [splitOn, hsplit]
    simp [ofSpelled, spelled, hne, hhere]
  | plain =>
    obtain ⟨segment, more, rfl⟩ := List.exists_cons_of_ne_nil hne
    have hspeaks := h.speaks rfl segment rfl
    rw [isIdle, Bool.or_eq_false_iff, beq_eq_false_iff_ne, beq_eq_false_iff_ne] at hspeaks
    have hslash : ∀ cs, Text.join ['/'] (segment :: more) ≠ '/' :: cs := by
      intro cs e
      rw [e, splitOn, if_pos rfl] at hsplit
      exact hspeaks.1 (List.cons.inj hsplit).1.symm
    have hhere : ∀ pieces, segment :: more ≠ ['.'] :: pieces :=
      fun pieces e => hspeaks.2 (List.cons.inj e).1
    unfold ofSpelled spelled
    dsimp only
    rw [String.toList_ofList]
    split
    · next cs e => exact absurd e (hslash cs)
    · rw [hsplit]
      split
      · next pieces e => exact absurd e (hhere pieces)
      · rfl

theorem components_ofSpelled (h : Follows start segments) :
    (ofSpelled start segments).components =
      start.components ++ (segments.filter (!isIdle ·)).map Component.ofSegment := by
  by_cases hne : segments = []
  · subst hne
    cases start <;> simp [ofSpelled, components, spelled, splitOn, isIdle, Text.join,
      Start.components]
  · simp only [components, spelled_ofSpelled h hne]

/-! ## Parents -/

theorem prefix_trimIdle (segments : List (List Char)) : trimIdle segments <+: segments := by
  rw [← List.reverse_suffix, trimIdle, List.reverse_reverse]
  exact List.dropWhile_suffix _

theorem filter_trimIdle (segments : List (List Char)) :
    (trimIdle segments).filter (!isIdle ·) = segments.filter (!isIdle ·) := by
  have hidle : (segments.reverse.takeWhile isIdle).reverse.filter (!isIdle ·) = [] := by
    refine List.filter_eq_nil_iff.2 fun segment hs => ?_
    have := List.mem_takeWhile_imp (List.mem_reverse.1 hs)
    simp [this]
  have hsplit : trimIdle segments ++ (segments.reverse.takeWhile isIdle).reverse = segments := by
    rw [trimIdle, ← List.reverse_append, List.takeWhile_append_dropWhile, List.reverse_reverse]
  conv_rhs => rw [← hsplit, List.filter_append, hidle, List.append_nil]

/-- The last segment that is left says something. -/
theorem isIdle_of_trimIdle_eq_concat {body : List (List Char)} {last : List Char}
    (h : trimIdle segments = body ++ [last]) : isIdle last = false := by
  have hhead := List.head?_dropWhile_not isIdle segments.reverse
  have hlast : (segments.reverse.dropWhile isIdle).head? = some last := by
    rw [← List.getLast?_reverse, ← trimIdle, h, List.getLast?_concat]
  rw [hlast] at hhead
  simpa using hhead

/-- A path with a component to leave out: not the empty path and not the root. -/
def HasParent (p : Path) : Prop := p.components ≠ [] ∧ p.components ≠ [.root]

theorem ofSegment_ne_root (segment : List Char) : Component.ofSegment segment ≠ .root := by
  unfold Component.ofSegment
  split <;> simp

theorem components_eq_trimIdle (p : Path) :
    p.components = p.spelled.1.components ++
      ((trimIdle p.spelled.2).filter (!isIdle ·)).map Component.ofSegment := by
  rw [filter_trimIdle]
  rfl

section
variable {body : List (List Char)} {last : List Char}

theorem components_of_concat (h : trimIdle p.spelled.2 = body ++ [last]) :
    p.components = (p.spelled.1.components ++
      (body.filter (!isIdle ·)).map Component.ofSegment) ++ [Component.ofSegment last] := by
  rw [components_eq_trimIdle, h, List.filter_append]
  simp [isIdle_of_trimIdle_eq_concat h]

theorem hasParent_of_concat (h : trimIdle p.spelled.2 = body ++ [last]) : p.HasParent := by
  rw [HasParent, components_of_concat h]
  refine ⟨by simp, fun e => ?_⟩
  have hlast := congrArg List.getLast? e
  rw [List.getLast?_concat, List.getLast?_singleton, Option.some.injEq] at hlast
  exact ofSegment_ne_root last hlast

/-- The parent is spelled with the segments before the last one that says something. -/
theorem parent?_of_concat (h : trimIdle p.spelled.2 = body ++ [last]) :
    p.parent? = some (ofSpelled p.spelled.1 (trimIdle body)) := by
  unfold parent?
  dsimp only
  rw [h]
  cases body with
  | nil => rfl
  | cons first body =>
    show some (ofSpelled p.spelled.1 (trimIdle (first :: body ++ [last]).dropLast)) = _
    rw [List.dropLast_concat]

theorem components_parent_of_concat (htext : p.text ≠ "")
    (h : trimIdle p.spelled.2 = body ++ [last]) :
    (ofSpelled p.spelled.1 (trimIdle body)).components = p.components.dropLast := by
  have hprefix : trimIdle body <+: p.spelled.2 :=
    ((prefix_trimIdle body).trans ⟨[last], h.symm⟩).trans (prefix_trimIdle p.spelled.2)
  rw [components_ofSpelled ((follows_spelled htext).shorten hprefix), filter_trimIdle,
    components_of_concat h, List.dropLast_concat]

end

/-- The parent has all components but the last; without one there is nothing to leave out. -/
theorem parent?_cases (p : Path) :
    (p.parent? = none ∧ ¬ p.HasParent) ∨
      ∃ q, p.parent? = some q ∧ p.HasParent ∧ q.components = p.components.dropLast := by
  by_cases htext : p.text = ""
  · left
    obtain ⟨text⟩ := p
    obtain rfl : text = "" := htext
    exact ⟨rfl, fun h => h.1 rfl⟩
  · rcases List.eq_nil_or_concat (trimIdle p.spelled.2) with hbody | ⟨body, last, hbody⟩
    · have hcomponents := components_eq_trimIdle p
      unfold parent? HasParent
      generalize p.spelled = spelling at hbody hcomponents
      obtain ⟨start, segments⟩ := spelling
      dsimp only at hbody hcomponents ⊢
      rw [hbody] at hcomponents ⊢
      cases start with
      | root => exact .inl ⟨rfl, fun h => h.2 hcomponents⟩
      | here => exact .inr ⟨⟨""⟩, rfl, by simp [hcomponents, Start.components], by
          rw [hcomponents]
          rfl⟩
      | plain => exact .inl ⟨rfl, fun h => h.1 hcomponents⟩
    · rw [List.concat_eq_append] at hbody
      exact .inr ⟨_, parent?_of_concat hbody, hasParent_of_concat hbody,
        components_parent_of_concat htext hbody⟩

theorem parent?_eq_none_iff : p.parent? = none ↔ ¬ p.HasParent := by
  rcases parent?_cases p with ⟨hp, hn⟩ | ⟨q, hp, hparent, -⟩
  · simp [hp, hn]
  · simp [hp, hparent]

theorem parent?_eq_some (h : p.parent? = some q) :
    p.HasParent ∧ q.components = p.components.dropLast := by
  rcases parent?_cases p with ⟨hp, -⟩ | ⟨q', hp, hparent⟩
  · rw [h] at hp
    cases hp
  · rw [h] at hp
    cases hp
    exact hparent

theorem length_components_of_parent? (h : p.parent? = some q) :
    q.components.length + 1 = p.components.length := by
  obtain ⟨⟨hne, -⟩, hq⟩ := parent?_eq_some h
  have := List.length_pos_iff.2 hne
  rw [hq, List.length_dropLast]
  omega

/-! ## All parents -/

theorem length_splitOn_le (sep : Char) (cs : List Char) :
    (splitOn sep cs).length ≤ cs.length + 1 := by
  induction cs with
  | nil => exact Nat.le_refl _
  | cons c cs ih =>
    obtain ⟨piece, pieces, hs⟩ := List.exists_cons_of_ne_nil (splitOn_ne_nil sep cs)
    rw [hs] at ih
    rw [splitOn, hs]
    split <;> simp at ih ⊢ <;> omega

/-- There are no more components than the steps that `parents` may take. -/
theorem length_components_le (p : Path) : p.components.length ≤ p.text.length + 1 := by
  have hpieces := length_splitOn_le '/' p.text.toList
  have hfilter : ∀ segments : List (List Char),
      (segments.filter (!isIdle ·)).length ≤ segments.length := fun _ => List.length_filter_le _ _
  rw [← String.length_toList]
  unfold components spelled
  split
  · next start segments hspelled =>
    split at hspelled
    · next cs hcs =>
      cases hspelled
      have hcs' := length_splitOn_le '/' cs
      have := hfilter (splitOn '/' cs)
      simp [hcs, Start.components]
      omega
    · split at hspelled
      · next segments hs =>
        cases hspelled
        have := hfilter segments
        rw [hs] at hpieces
        simp [Start.components] at hpieces ⊢
        omega
      · cases hspelled
        have := hfilter (splitOn '/' p.text.toList)
        simp [Start.components]
        omega

theorem parentsWithin_succ {steps : Nat} (h : p.components.length ≤ steps) :
    parentsWithin (steps + 1) p = parentsWithin steps p := by
  induction steps generalizing p with
  | zero =>
    have hnone : p.parent? = none :=
      parent?_eq_none_iff.2 fun hp => hp.1 (List.length_eq_zero_iff.1 (Nat.le_zero.1 h))
    simp [parentsWithin, hnone]
  | succ steps ih =>
    rw [parentsWithin, parentsWithin]
    cases hq : p.parent? with
    | none => rfl
    | some q =>
      have hlength : q.components.length ≤ steps := by
        have := length_components_of_parent? hq
        omega
      simp only [ih hlength]

/-- More steps than there are components find no more parents. -/
theorem parentsWithin_eq_parents {steps : Nat} (h : p.components.length ≤ steps) :
    parentsWithin steps p = p.parents := by
  have hlast : ∀ steps, p.components.length ≤ steps →
      parentsWithin steps p = parentsWithin p.components.length p := by
    intro steps h
    induction steps, h using Nat.le_induction with
    | base => rfl
    | succ steps h ih => rw [parentsWithin_succ h, ih]
  rw [parents, hlast steps h, hlast _ (length_components_le p)]

/-- The parents go on until a path has none. -/
theorem parents_eq (p : Path) :
    p.parents =
      match p.parent? with
      | some q => q :: q.parents
      | none => [] := by
  rw [parents, parentsWithin]
  cases hq : p.parent? with
  | none => rfl
  | some q =>
    have hlength : q.components.length ≤ p.text.length := by
      have hp := length_components_le p
      have := length_components_of_parent? hq
      omega
    simp only [parentsWithin_eq_parents hlength]

/-! ## The way up -/

theorem head?_components_iff : p.components.head? = some .root ↔ p.isAbsolute = true := by
  have hstart := spelled_fst p
  rw [isAbsolute, beq_iff_eq, components_eq]
  by_cases habsolute : p.text.toList.head? = some '/'
  · rw [if_pos habsolute] at hstart
    simp [hstart, habsolute, Start.components]
  · rw [if_neg habsolute] at hstart
    refine iff_of_false (fun h => ?_) habsolute
    split at hstart
    · simp [hstart, Start.components] at h
    · rw [hstart, Start.components, List.nil_append, List.head?_map] at h
      obtain ⟨segment, -, hroot⟩ := Option.map_eq_some_iff.1 h
      exact ofSegment_ne_root segment hroot

theorem isAbsolute_of_parent? (h : p.parent? = some q) : q.isAbsolute = p.isAbsolute := by
  obtain ⟨⟨hne, hroot⟩, hq⟩ := parent?_eq_some h
  rw [Bool.eq_iff_iff, ← head?_components_iff, ← head?_components_iff, hq]
  cases hcs : p.components with
  | nil => exact absurd hcs hne
  | cons c cs =>
    cases cs with
    | nil =>
      rw [hcs] at hroot
      simpa using hroot
    | cons d cs => rfl

/-- The way up from `start`: each directory is followed by its parent, and the last one is the
root, or the working directory where the path is relative. -/
structure IsWayUp (start : Path) (dirs : List Path) : Prop where
  first : dirs.head? = some start
  parent : dirs.IsChain fun dir above =>
    dir.HasParent ∧ above.components = dir.components.dropLast
  last : ∀ top, dirs.getLast? = some top →
    top.components = if start.isAbsolute then [.root] else []

theorem components_of_not_hasParent (h : ¬ p.HasParent) :
    p.components = if p.isAbsolute then [.root] else [] := by
  rw [HasParent, not_and_or, not_not, not_not] at h
  have habsolute := head?_components_iff (p := p)
  rcases h with h | h
  · rw [h] at habsolute
    rw [h, if_neg (mt habsolute.2 (by simp))]
  · rw [h] at habsolute
    rw [h, if_pos (habsolute.1 rfl)]

theorem isWayUp_parents (start : Path) : IsWayUp start (start :: start.parents) := by
  induction hlength : start.components.length using Nat.strong_induction_on generalizing start with
  | _ length ih =>
    rw [parents_eq]
    cases hq : start.parent? with
    | none =>
      have hlast := components_of_not_hasParent (parent?_eq_none_iff.1 hq)
      refine ⟨rfl, .singleton _, fun top htop => ?_⟩
      cases htop
      exact hlast
    | some q =>
      have hshorter := length_components_of_parent? hq
      have hup := ih _ (by omega) q rfl
      refine ⟨rfl, List.isChain_cons_cons.2 ⟨parent?_eq_some hq, hup.parent⟩, fun top htop => ?_⟩
      rw [← isAbsolute_of_parent? hq]
      exact hup.last top (by rwa [List.getLast?_cons_cons] at htop)

section
variable {dir : Path}

theorem mem_parents (h : dir ∈ p.parents) : ∃ q, p.parent? = some q ∧ dir ∈ q :: q.parents := by
  rw [parents_eq] at h
  split at h
  · next q hq => exact ⟨q, hq, h⟩
  · cases h

/-- What holds from a path to its parent holds all the way up. -/
theorem forall_way_up {motive : Path → Path → Prop} (refl : ∀ p, motive p p)
    (step : ∀ {p q dir}, p.parent? = some q → motive q dir → motive p dir)
    (h : dir ∈ p :: p.parents) : motive p dir := by
  induction hlength : p.components.length using Nat.strong_induction_on generalizing p with
  | _ length ih =>
    rcases List.mem_cons.1 h with rfl | h
    · exact refl dir
    · obtain ⟨q, hq, hdir⟩ := mem_parents h
      have hshorter := length_components_of_parent? hq
      exact step hq (ih _ (by omega) hdir rfl)

theorem prefix_components (h : dir ∈ p :: p.parents) : dir.components <+: p.components :=
  forall_way_up (motive := fun p dir => dir.components <+: p.components)
    (fun _ => List.prefix_rfl)
    (fun hq hdir => hdir.trans ((parent?_eq_some hq).2 ▸ List.dropLast_prefix _)) h

theorem isAbsolute_of_mem (h : dir ∈ p :: p.parents) : dir.isAbsolute = p.isAbsolute :=
  forall_way_up (motive := fun p dir => dir.isAbsolute = p.isAbsolute)
    (fun _ => rfl) (fun hq hdir => hdir.trans (isAbsolute_of_parent? hq)) h

/-- The way up from a directory on the way is the rest of the way. -/
theorem mem_of_mem_parents {above : Path} (h : dir ∈ p :: p.parents)
    (habove : above ∈ dir :: dir.parents) : above ∈ p :: p.parents := by
  refine forall_way_up (motive := fun p dir =>
    ∀ above ∈ dir :: dir.parents, above ∈ p :: p.parents) (fun _ _ h => h) ?_ h above habove
  intro p q dir hq hdir above habove
  rw [parents_eq, hq]
  exact List.mem_cons_of_mem _ (hdir above habove)

end

end CatalogAudit.Path
