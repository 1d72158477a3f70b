/-
  CatalogAudit.Proofs.Scan.Routes — the namespace of a route, told by the segments of a path.

  The route is searched for in the text of the path, as a shape with an alternative in it. In a
  path in which one segment is the marker and no other ends in it, the shape can only begin at
  that segment (`below_of_marker_in_markedPath`). What it takes from there on is the segment below,
  past one group at most (`fields_of_route`); so the search and the segments tell the same
  (`route_is_read_by_segments`).
-/

import CatalogAudit.Config.Basic
import CatalogAudit.Proofs.Text.Searching
import CatalogAudit.Proofs.Text.Splitting
import CatalogAudit.Scan.Attribute
import Mathlib.Data.List.Basic

namespace CatalogAudit.Shape

open Text Text.Pattern

/-! ## Segments below the marker -/

/-- What stands between the first and the last character of a segment. -/
def inside (segment : List Char) : List Char := segment.tail.dropLast

def HasNoParenthesis (cs : List Char) : Prop := ∀ c ∈ cs, isParenthesis c = false

instance : DecidablePred HasNoParenthesis := fun cs =>
  decidable_of_iff (cs.all (!isParenthesis ·) = true) (by simp [HasNoParenthesis])

/-- A name in parentheses that is not empty and holds none. -/
def IsGroup (segment : List Char) : Prop :=
  segment = '(' :: (inside segment ++ [')']) ∧ inside segment ≠ [] ∧
    HasNoParenthesis (inside segment)

instance : DecidablePred IsGroup := fun _ => inferInstanceAs (Decidable (_ ∧ _ ∧ _))

/-- The first segment, if it is no group and others follow. -/
def directory? : List (List Char) → Option (List Char)
  | segment :: _ :: _ => if IsGroup segment then none else some segment
  | _ => none

/-- The first segment, or the second when the first is a group; it counts as in `directory?`. -/
def routeDirectory? : List (List Char) → Option (List Char)
  | [] => none
  | segment :: below => directory? (if IsGroup segment then below else segment :: below)

/-- A segment that may stand below the marker. -/
structure IsSegment (segment : List Char) : Prop where
  ne_nil : segment ≠ []
  no_slash : '/' ∉ segment
  plain_or_group : HasNoParenthesis segment ∨ IsGroup segment

theorem IsGroup.eq_cons {segment : List Char} (h : IsGroup segment) :
    ∃ name, segment = '(' :: (name ++ [')']) ∧ name ≠ [] ∧ HasNoParenthesis name :=
  ⟨inside segment, h⟩

theorem IsSegment.plain_of_not_group {segment : List Char} (h : IsSegment segment)
    (hgroup : ¬ IsGroup segment) : HasNoParenthesis segment :=
  h.plain_or_group.resolve_right hgroup

/-! ## What the shape takes -/

def isDirectoryChar (c : Char) : Bool := c != '/' && !isParenthesis c

/-- A directory that is kept, with the slash after it. -/
def directory : Pattern := all [.field isDirectoryChar, char '/']

section
variable {segment : List Char} {below : List (List Char)}

theorem join_cons_cons (segment next : List Char) (below : List (List Char)) :
    join ['/'] (segment :: next :: below) = segment ++ '/' :: join ['/'] (next :: below) := by
  simp [join]

theorem head?_join_of_group (h : IsGroup segment) (below : List (List Char)) :
    (join ['/'] (segment :: below)).head? = some '(' := by
  obtain ⟨name, rfl, -⟩ := h.eq_cons
  cases below <;> rfl

theorem head?_join_of_not_group (h : IsSegment segment) (hgroup : ¬ IsGroup segment)
    (below : List (List Char)) : (join ['/'] (segment :: below)).head? ≠ some '(' := by
  obtain ⟨c, segment, rfl⟩ := List.exists_cons_of_ne_nil h.ne_nil
  have hplain := h.plain_of_not_group hgroup c List.mem_cons_self
  intro hopen
  have hc : c = '(' := by cases below <;> simpa [join] using hopen
  exact absurd hplain (by simp [hc, isParenthesis])

theorem IsSegment.isDirectoryChar_of_not_group (h : IsSegment segment)
    (hgroup : ¬ IsGroup segment) : ∀ c ∈ segment, isDirectoryChar c = true := by
  intro c hc
  have hslash : c ≠ '/' := fun heq => h.no_slash (heq ▸ hc)
  simp [isDirectoryChar, hslash, h.plain_of_not_group hgroup c hc]

theorem match?_directory_of_group (h : IsGroup segment) (before : List Char)
    (below : List (List Char)) :
    directory.match? ⟨before, join ['/'] (segment :: below)⟩ = none := by
  have hhead : (join ['/'] (segment :: below)).head?.any isDirectoryChar = false := by
    rw [head?_join_of_group h]
    rfl
  rw [match?, directory]
  simp [all, matchThen_seq, matchThen, hhead]

section
variable (h : IsSegment segment) (hgroup : ¬ IsGroup segment) (before : List Char)
include h hgroup

theorem match?_directory_last : directory.match? ⟨before, segment⟩ = none := by
  have hend : ([] : List Char).head?.any isDirectoryChar = false := rfl
  rw [match?, directory, ← List.append_nil segment]
  simp only [all, List.foldr_cons, List.foldr_nil, matchThen_seq,
    matchThen_field h.ne_nil (h.isDirectoryChar_of_not_group hgroup) hend]
  rfl

theorem match?_directory_append (cs : List Char) :
    directory.match? ⟨before, segment ++ '/' :: cs⟩ =
      some ([segment], ⟨'/' :: (segment.reverse ++ before), cs⟩) := by
  have hend : ('/' :: cs).head?.any isDirectoryChar = false := rfl
  rw [match?, directory]
  simp only [all, List.foldr_cons, List.foldr_nil, matchThen_seq,
    matchThen_field h.ne_nil (h.isDirectoryChar_of_not_group hgroup) hend, matchThen_char,
    matchThen_nothing, List.append_nil]

end

/-- At segments of a path the shape of a directory takes the first one, as `directory?` does. -/
theorem fields_of_directory (before : List Char) (h : ∀ segment ∈ below, IsSegment segment) :
    (directory.match? ⟨before, join ['/'] below⟩).map Prod.fst =
      (directory? below).map fun segment => [segment] := by
  cases below with
  | nil => rfl
  | cons segment below =>
    have hsegment := h segment List.mem_cons_self
    by_cases hgroup : IsGroup segment
    · rw [match?_directory_of_group hgroup]
      cases below <;> simp [directory?, hgroup]
    · cases below with
      | nil =>
        rw [join, match?_directory_last hsegment hgroup]
        rfl
      | cons next below =>
        rw [join_cons_cons, match?_directory_append hsegment hgroup]
        simp [directory?, hgroup]

/-- A group with a slash after it is passed. -/
theorem matchThen_group {α : Type} {next : List (List Char) → Cursor → Option α}
    (h : IsGroup segment) (before cs : List Char) :
    group.matchThen ⟨before, segment ++ '/' :: cs⟩ next =
      next [] ⟨'/' :: (segment.reverse ++ before), cs⟩ := by
  obtain ⟨name, rfl, hne, hname⟩ := h.eq_cons
  obtain ⟨c, name, rfl⟩ := List.exists_cons_of_ne_nil hne
  have hopen : ∀ x ∈ c :: name, (x != ')') = true := fun x hx => bne_iff_ne.2 fun hclose =>
    absurd (hname x hx) (by simp [hclose, isParenthesis])
  obtain ⟨hfirst, hothers⟩ := List.forall_mem_cons.1 hopen
  have hend : (')' :: '/' :: cs).head?.any (· != ')') = false := rfl
  have htext : '(' :: (c :: name ++ [')']) ++ '/' :: cs =
      '(' :: c :: (name ++ ')' :: '/' :: cs) := by
    simp
  rw [htext, group]
  simp only [all, List.foldr_cons, List.foldr_nil, matchThen_seq, matchThen_char,
    matchThen_one (p := (· != ')')) hfirst, matchThen_span (p := (· != ')')) hothers hend,
    matchThen_nothing]
  simp

/-- What is passed starts with a parenthesis and ends with a slash. -/
theorem takes_group {c d : Cursor} {fields : List (List Char)} (h : Matches group c fields d) :
    ∃ cs, c.after = '(' :: (cs ++ '/' :: d.after) := by
  obtain ⟨_, _, _, opening, fromFirst, -⟩ := matches_seq.1 h
  obtain ⟨_, _, _, first, fromName, -⟩ := matches_seq.1 fromFirst
  obtain ⟨_, _, _, name, fromClosing, -⟩ := matches_seq.1 fromName
  obtain ⟨_, _, _, closing, fromSlash, -⟩ := matches_seq.1 fromClosing
  obtain ⟨_, _, _, slash, finish, -⟩ := matches_seq.1 fromSlash
  cases finish
  obtain ⟨x, -, hfirst, -⟩ := takes_one first
  obtain ⟨xs, -, hname, -⟩ := takes_span name
  refine ⟨x :: (xs ++ [')']), ?_⟩
  rw [(takes_text opening).1, hfirst, hname, (takes_text closing).1, (takes_text slash).1]
  simp

theorem matchThen_group_eq_none {α : Type} {next : List (List Char) → Cursor → Option α}
    {cs : List Char} (h : cs.head? ≠ some '(' ∨ '/' ∉ cs) (before : List Char) :
    group.matchThen ⟨before, cs⟩ next = none := by
  by_contra hsome
  obtain ⟨found, hfound⟩ := Option.ne_none_iff_exists'.1 hsome
  obtain ⟨fields, d, hgroup, -⟩ := matchThen_sound hfound
  obtain ⟨more, rfl⟩ := takes_group hgroup
  simp at h

/-- Past the marker a group may be passed first, and then a directory is taken. -/
theorem match?_route (marker before cs : List Char) :
    (route marker).match? ⟨before, marker ++ '/' :: cs⟩ =
      (group.matchThen ⟨'/' :: (marker.reverse ++ before), cs⟩ fun fields c =>
        directory.matchThen c fun more d => some (fields ++ more, d)).or
          (directory.match? ⟨'/' :: (marker.reverse ++ before), cs⟩) := by
  rw [match?, route]
  simp only [all, List.foldr_cons, List.foldr_nil, matchThen_seq, matchThen_text, matchThen_char]
  exact Option.orElse_eq_or

/-- Below the marker the shape takes what `routeDirectory?` tells. -/
theorem fields_of_route (marker before : List Char) (h : ∀ segment ∈ below, IsSegment segment) :
    ((route marker).match? ⟨before, marker ++ '/' :: join ['/'] below⟩).map Prod.fst =
      (routeDirectory? below).map fun segment => [segment] := by
  rw [match?_route]
  cases below with
  | nil =>
    rw [matchThen_group_eq_none (.inl (by simp [join])), Option.none_or]
    exact fields_of_directory _ h
  | cons segment below =>
    obtain ⟨hsegment, hbelow⟩ := List.forall_mem_cons.1 h
    by_cases hgroup : IsGroup segment
    · -- no directory starts with a parenthesis, so only the way past the group is left
      rw [routeDirectory?, if_pos hgroup, match?_directory_of_group hgroup, Option.or_none]
      cases below with
      | nil =>
        rw [join, matchThen_group_eq_none (.inr hsegment.no_slash)]
        rfl
      | cons next below =>
        rw [join_cons_cons, matchThen_group hgroup]
        exact fields_of_directory _ hbelow
    · rw [matchThen_group_eq_none (.inl (head?_join_of_not_group hsegment hgroup below)),
        Option.none_or, routeDirectory?, if_neg hgroup]
      exact fields_of_directory _ h

end

/-! ## Where the shape begins -/

/-- A match begins with the marker and a slash. -/
theorem exists_append_of_route {marker : List Char} {c d : Cursor} {fields : List (List Char)}
    (h : Matches (route marker) c fields d) : ∃ cs, c.after = marker ++ '/' :: cs := by
  obtain ⟨_, _, _, named, fromSlash, -⟩ := matches_seq.1 h
  obtain ⟨_, _, _, slash, -, -⟩ := matches_seq.1 fromSlash
  exact ⟨_, by rw [(takes_text named).1, (takes_text slash).1]; rfl⟩

/-- A path in which one segment is the marker and no other ends in it. -/
structure IsMarkedPath (above : List (List Char)) (marker : List Char) (below : List (List Char)) :
    Prop where
  no_slash : ∀ segment ∈ above ++ marker :: below, '/' ∉ segment
  ends_once : ∀ segment ∈ above ++ below, ¬ marker <:+ segment

def markedPath (above : List (List Char)) (marker : List Char) (below : List (List Char)) :
    List Char := join ['/'] (above ++ marker :: below)

section
variable {marker front rest : List Char} {above below : List (List Char)}

/-- Where the marker stands with a slash after it, the path goes on with the segments below. -/
theorem below_of_marker_in_markedPath (h : IsMarkedPath above marker below)
    (hpath : markedPath above marker below = front ++ (marker ++ '/' :: rest)) :
    rest = join ['/'] below := by
  have hsegments := splitOn_join (by simp) h.no_slash
  obtain ⟨pieces, last, hfront⟩ :=
    splitOn_append_of_not_mem front (h.no_slash marker (by simp))
  rw [← markedPath, hpath, ← List.append_assoc, splitOn_append_cons, hfront, List.append_assoc,
    List.singleton_append] at hsegments
  -- the piece that ends at the slash ends in the marker, so it is none of the others
  have hother : ∀ segment ∈ above ++ below, last ++ marker ≠ segment := fun segment hmem heq =>
    h.ends_once segment hmem (heq ▸ List.suffix_append last marker)
  obtain ⟨-, -, hrest⟩ := (List.append_cons_inj_of_notMem
    (fun hmem => hother _ (List.mem_append_left _ hmem) rfl)
    (fun hmem => hother _ (List.mem_append_right _ hmem) rfl)).1 hsegments.symm
  rw [hrest, join_splitOn]

/-- With segments below it, the marker stands in the path with a slash after it. -/
theorem exists_marker_in_markedPath (above : List (List Char)) (marker : List Char)
    (hbelow : below ≠ []) :
    ∃ front, markedPath above marker below = front ++ (marker ++ '/' :: join ['/'] below) := by
  obtain ⟨front, hfront⟩ : marker <:+ join ['/'] (above ++ [marker]) := by
    by_cases habove : above = []
    · rw [habove]
      exact List.suffix_refl marker
    · rw [join_append ['/'] habove (List.cons_ne_nil _ _)]
      exact List.suffix_append _ marker
  refine ⟨front, ?_⟩
  rw [markedPath, List.append_cons, join_append ['/'] (by simp) hbelow, ← hfront]
  simp

end

end CatalogAudit.Shape

namespace CatalogAudit.Scan

open Text Text.Pattern Shape

/-- What the search takes for the namespace of a route is what the segments of the path tell: the
segment below the marker, past one group at most, if it is no group itself and not the last. -/
theorem route_is_read_by_segments (rules : ScanRules) {above below : List (List Char)}
    (hpath : IsMarkedPath above rules.routeMarker.toList below)
    (hbelow : ∀ segment ∈ below, IsSegment segment) :
    routeNamespace? rules (markedPath above rules.routeMarker.toList below) =
      (routeDirectory? below).map String.ofList := by
  have hfields := fun before => fields_of_route rules.routeMarker.toList before hbelow
  rw [routeNamespace?, find?]
  generalize rules.routeMarker.toList = marker at *
  cases hfound : (route marker).findFrom? [] (markedPath above marker below) with
  | none =>
    have hnone : routeDirectory? below = none := by
      by_cases hempty : below = []
      · rw [hempty]
        rfl
      · obtain ⟨front, hsplit⟩ := exists_marker_in_markedPath above marker hempty
        have hfields := hfields (front.reverse ++ [])
        rw [match?_of_findFrom?_none hfound _ _ hsplit (by simp)] at hfields
        exact Option.map_eq_none_iff.1 hfields.symm
    rw [hnone]
    rfl
  | some m =>
    obtain ⟨us, vs, stop, hsplit, -, hmatch, -⟩ := first_of_findFrom?_some hfound
    obtain ⟨rest, rfl⟩ := exists_append_of_route (match?_sound hmatch)
    obtain rfl := below_of_marker_in_markedPath hpath hsplit
    have hfields := hfields m.before
    rw [hmatch] at hfields
    obtain ⟨segment, hsegment, hm⟩ := Option.map_eq_some_iff.1 hfields.symm
    have hm : m.fields = [segment] := hm.symm
    rw [hsegment, Option.bind_some, hm]
    rfl

/-- The segments below the marker in the path of a page that lies in a group. -/
def aboutPage : List (List Char) := ["(marketing)".toList, "about".toList, "page.tsx".toList]

theorem route_is_read_by_segments_about :
    IsMarkedPath ["src".toList, "app".toList] Config.default.scanRules.routeMarker.toList
        aboutPage ∧
      (∀ segment ∈ aboutPage, IsSegment segment) ∧
      routeNamespace? Config.default.scanRules
        "src/app/[locale]/(marketing)/about/page.tsx".toList = some "about" := by
  have hpath : IsMarkedPath ["src".toList, "app".toList]
      Config.default.scanRules.routeMarker.toList aboutPage := ⟨by decide, by decide⟩
  have hbelow : ∀ segment ∈ aboutPage, IsSegment segment := by
    intro segment hmem
    simp only [aboutPage, List.mem_cons, List.not_mem_nil, or_false] at hmem
    obtain rfl | rfl | rfl := hmem
    · exact ⟨by decide, by decide, .inr (by decide)⟩
    · exact ⟨by decide, by decide, .inl (by decide)⟩
    · exact ⟨by decide, by decide, .inl (by decide)⟩
  have hroute := route_is_read_by_segments Config.default.scanRules hpath hbelow
  have htext : markedPath ["src".toList, "app".toList]
      Config.default.scanRules.routeMarker.toList aboutPage =
        "src/app/[locale]/(marketing)/about/page.tsx".toList := by decide
  rw [htext] at hroute
  exact ⟨hpath, hbelow, hroute.trans (by decide)⟩

end CatalogAudit.Scan
