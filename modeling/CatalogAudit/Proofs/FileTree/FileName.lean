/-
  CatalogAudit.Proofs.FileTree.FileName — the name that stands last in a location.

  A path that names a file leads to a location of that name, however it goes there
  (`getLast?_of_locate`). A text at the end of a path, without a slash and with more in it
  than dots, ends the file name too (`fileName?_of_suffix`). So paths whose texts end
  differently lead to different locations.
-/

import CatalogAudit.FileTree
import CatalogAudit.Proofs.Except
import CatalogAudit.Proofs.Text.Splitting

namespace CatalogAudit

namespace Path

open Text

variable {p : Path} {name : String}

/-- The start that is spelled apart has no segment that says something. -/
theorem filter_spelled (p : Path) :
    p.spelled.2.filter (!isIdle ·) = (splitOn '/' p.text.toList).filter (!isIdle ·) := by
  unfold spelled
  split
  · next cs h => simp [h, splitOn, isIdle]
  · split
    · next segments h => simp [h, isIdle]
    · rfl

/-- The components are the start and the segments that say something. -/
theorem components_eq (p : Path) :
    p.components = p.spelled.1.components ++
      ((splitOn '/' p.text.toList).filter (!isIdle ·)).map Component.ofSegment := by
  rw [← filter_spelled]
  rfl

/-- The file name is the last segment that says something. -/
theorem fileName?_eq_some_iff :
    p.fileName? = some name ↔
      ∃ segment, ((splitOn '/' p.text.toList).filter (!isIdle ·)).getLast? = some segment ∧
        segment ≠ ['.', '.'] ∧ name = String.ofList segment := by
  rw [fileName?, components_eq, List.getLast?_append, List.getLast?_map]
  cases hlast : ((splitOn '/' p.text.toList).filter (!isIdle ·)).getLast? with
  | none =>
    -- the start is no file name
    cases p.spelled.1 <;> simp [Start.components]
  | some segment =>
    by_cases hup : segment = ['.', '.']
    · simp [Component.ofSegment, hup]
    · simp [Component.ofSegment, hup, eq_comm]

theorem fileName?_of_suffix {before ending : List Char} (h : p.text.toList = before ++ ending)
    (hsep : '/' ∉ ending) (hdot : ∃ c ∈ ending, c ≠ '.') :
    ∃ last, p.fileName? = some (String.ofList (last ++ ending)) := by
  obtain ⟨pieces, last, hsplit⟩ := splitOn_append_of_not_mem before hsep
  obtain ⟨c, hc, hne⟩ := hdot
  have hplain : ∀ dots : List Char, (∀ d ∈ dots, d = '.') → last ++ ending ≠ dots :=
    fun dots hall e => hne (hall c (e ▸ List.mem_append_right last hc))
  have hspeaks : isIdle (last ++ ending) = false := by
    simp only [isIdle, Bool.or_eq_false_iff, beq_eq_false_iff_ne]
    exact ⟨hplain [] (by simp), hplain ['.'] (by simp)⟩
  refine ⟨last, fileName?_eq_some_iff.2 ⟨last ++ ending, ?_, hplain _ (by simp), rfl⟩⟩
  rw [h, hsplit, List.filter_append, List.getLast?_append]
  simp [hspeaks]

/-- A child's text ends with its name. -/
theorem exists_text_child (p : Path) (name : String) :
    ∃ before, (p.child name).text.toList = before ++ name.toList := by
  unfold child join
  split
  · exact ⟨[], rfl⟩
  · split
    · exact ⟨p.text.toList, String.toList_append⟩
    · exact ⟨(p.text ++ "/").toList, String.toList_append⟩

/-! ## Stem and extension -/

section

variable {α : Type} [DecidableEq α] {dot : α} {name stem ending : List α}

theorem splitName_of_append (hstem : stem ≠ []) (hdot : dot ∉ ending) :
    splitName dot (stem ++ dot :: ending) = (stem, some ending) := by
  have hending : (stem ++ dot :: ending).reverse.takeWhile (· != dot) = ending.reverse := by
    have hplain : ∀ c ∈ ending.reverse, (c != dot) = true := by
      intro c hc
      rw [bne_iff_ne]
      exact fun e => hdot (e ▸ List.mem_reverse.1 hc)
    simp [List.takeWhile_append_of_pos hplain]
  unfold splitName
  dsimp only
  rw [hending]
  obtain ⟨c, cs, hcs⟩ := List.exists_cons_of_ne_nil (mt List.reverse_eq_nil_iff.1 hstem)
  have hrest : (stem ++ dot :: ending).reverse.drop ending.reverse.length = dot :: c :: cs := by
    simp [← hcs]
  rw [hrest]
  show ((c :: cs).reverse, some ending.reverse.reverse) = (stem, some ending)
  rw [← hcs, List.reverse_reverse, List.reverse_reverse]

/-- The extension is what comes after the last dot, if anything comes before that dot. -/
theorem splitName_snd_eq_some_iff :
    (splitName dot name).2 = some ending ↔
      ∃ stem, stem ≠ [] ∧ dot ∉ ending ∧ name = stem ++ dot :: ending := by
  constructor
  · intro h
    unfold splitName at h
    dsimp only at h
    split at h
    · next first c cs hrest =>
      cases h
      have hwhole : name.reverse.takeWhile (· != dot) ++ name.reverse.dropWhile (· != dot) =
          name.reverse := List.takeWhile_append_dropWhile
      have hdrop : (name.reverse.takeWhile (· != dot) ++ name.reverse.dropWhile (· != dot)).drop
          (name.reverse.takeWhile (· != dot)).length = name.reverse.dropWhile (· != dot) :=
        List.drop_left
      rw [hwhole, hrest] at hdrop
      have hstop := List.head?_dropWhile_not (· != dot) name.reverse
      rw [← hdrop] at hstop hwhole
      obtain rfl : first = dot := by simpa using hstop
      refine ⟨(c :: cs).reverse, by simp, ?_, ?_⟩
      · intro hmem
        have hplain := List.all_eq_true.1 List.all_takeWhile _ (List.mem_reverse.1 hmem)
        simp at hplain
      · simpa using (congrArg List.reverse hwhole).symm
    · cases h
  · rintro ⟨stem, hstem, hdot, rfl⟩
    rw [splitName_of_append hstem hdot]

end

end Path

namespace FileTree

open CatalogAudit.Path

variable {t : FileTree} {p : Path} {loc l : Location}

theorem eq_foldl_of_follow {segments : List String} (h : t.follow loc segments = .ok l) :
    l = segments.foldl step loc := by
  induction segments generalizing loc with
  | nil =>
    cases h
    rfl
  | cons segment rest ih =>
    rw [follow] at h
    split at h
    · split at h
      · cases h
      · exact ih h
    · cases h
    · cases h

theorem step_ofList (loc : Location) (segment : List Char) :
    step loc (String.ofList segment) =
      if isIdle segment then loc
      else if segment = ['.', '.'] then loc.dropLast
      else loc ++ [String.ofList segment] := by
  have hidle : (decide (String.ofList segment = "") || decide (String.ofList segment = ".")) =
      isIdle segment := by
    rw [Bool.eq_iff_iff]
    simp [isIdle, ← String.toList_inj]
  have hup : String.ofList segment = ".." ↔ segment = ['.', '.'] := by
    simp [← String.toList_inj]
  simp only [step, hidle, hup]

theorem foldl_step_of_idle {segments : List (List Char)} (h : ∀ s ∈ segments, isIdle s = true) :
    (segments.map String.ofList).foldl step loc = loc := by
  induction segments with
  | nil => rfl
  | cons s rest ih =>
    rw [List.map_cons, List.foldl_cons, step_ofList, if_pos (h s List.mem_cons_self)]
    exact ih fun s hs => h s (List.mem_cons_of_mem _ hs)

/-- The last segment that says something names the location. -/
theorem getLast?_foldl_step {segments : List (List Char)} {segment : List Char}
    (h : (segments.filter (!isIdle ·)).getLast? = some segment) (hup : segment ≠ ['.', '.']) :
    ((segments.map String.ofList).foldl step loc).getLast? = some (String.ofList segment) := by
  induction segments generalizing loc with
  | nil => cases h
  | cons s rest ih =>
    rw [List.map_cons, List.foldl_cons]
    cases hrest : rest.filter (!isIdle ·) with
    | cons next more =>
      refine ih ?_
      rw [List.filter_cons] at h
      split at h
      · rwa [hrest, List.getLast?_cons_cons, ← hrest] at h
      · exact h
    | nil =>
      have hidle : ∀ s ∈ rest, isIdle s = true := by
        simpa [List.filter_eq_nil_iff] using hrest
      rw [List.filter_cons, hrest] at h
      split at h
      · next hs =>
        obtain rfl : s = segment := by simpa using h
        rw [foldl_step_of_idle hidle, step_ofList, if_neg (by simpa using hs), if_neg hup]
        simp
      · cases h

theorem getLast?_of_locate {name : String} (h : t.locate p = .ok loc)
    (hn : p.fileName? = some name) : loc.getLast? = some name := by
  obtain ⟨segment, hlast, hup, rfl⟩ := fileName?_eq_some_iff.1 hn
  unfold locate at h
  split at h
  · cases h
  · rw [eq_foldl_of_follow h]
    exact getLast?_foldl_step hlast hup

end FileTree

end CatalogAudit
