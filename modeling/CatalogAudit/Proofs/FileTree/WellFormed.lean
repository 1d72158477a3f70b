/-
  CatalogAudit.Proofs.FileTree.WellFormed — trees as they are on a disk.

  In a well-formed tree one thing stands at a location, and in a directory of its own: what
  stands above an entry is a directory all the way up (`directory_above`).
-/

import CatalogAudit.Proofs.Except
import CatalogAudit.Proofs.Path.Children

namespace CatalogAudit

namespace FileTree

variable {t : FileTree} {loc l dir : Location} {names rest : List String} {node : Node}

/-- One thing at a location, names that a directory may have in it, and nothing outside of a
directory. -/
structure WellFormed (t : FileTree) : Prop where
  distinct : t.nodes.names.Nodup
  named : ∀ loc ∈ t.nodes.names, loc ≠ [] ∧ ∀ name ∈ loc, Path.IsName name
  closed : ∀ loc ∈ t.nodes.names, t.node? loc.dropLast = some .directory

theorem mem_names_of_node? (hne : loc ≠ []) (h : t.node? loc = some node) :
    loc ∈ t.nodes.names := by
  rw [node?, if_neg hne] at h
  rw [← Assoc.has_iff_mem_names, Assoc.has_eq_isSome_value?, h]
  rfl

namespace WellFormed

theorem node?_eq_some_iff (ht : t.WellFormed) (hne : loc ≠ []) :
    t.node? loc = some node ↔ (loc, node) ∈ t.nodes := by
  rw [node?, if_neg hne, Assoc.value?_eq_some_iff ht.distinct]

/-- Whatever stands below a location, the location is a directory. -/
theorem directory_above (ht : t.WellFormed) (h : t.node? (dir ++ rest) = some node)
    (hrest : rest ≠ []) : t.node? dir = some .directory := by
  induction rest generalizing dir node with
  | nil => exact absurd rfl hrest
  | cons name more ih =>
    rw [List.append_cons] at h
    have hentry : ∃ entry, t.node? (dir ++ [name]) = some entry := by
      cases more with
      | nil => exact ⟨node, by simpa using h⟩
      | cons next more => exact ⟨.directory, ih h (List.cons_ne_nil next more)⟩
    obtain ⟨entry, hentry⟩ := hentry
    have habove := ht.closed _ (mem_names_of_node? (by simp) hentry)
    rwa [List.dropLast_concat] at habove

end WellFormed

theorem text_ne_of_locate {p : Path} (h : t.locate p = .ok loc) : p.text ≠ "" := by
  intro e
  simp [locate, misspelling?, e] at h

/-- What is found at a path stands at the location that the path leads to. -/
theorem look_eq_ok {p : Path} (h : t.look p = .ok (loc, node)) :
    t.locate p = .ok loc ∧ t.node? loc = some node := by
  obtain ⟨l, hlocate, hnode⟩ := bind_eq_ok.1 h
  split at hnode
  · next hfound =>
    cases hnode
    exact ⟨hlocate, hfound⟩
  · cases hnode

theorem locateDirectory_eq_ok {p : Path} (h : t.locateDirectory p = .ok loc) :
    t.locate p = .ok loc ∧ t.node? loc = some .directory := by
  obtain ⟨⟨l, node⟩, hlook, hdirectory⟩ := bind_eq_ok.1 h
  cases node with
  | directory =>
    cases hdirectory
    exact look_eq_ok hlook
  | file content => cases hdirectory
  | device => cases hdirectory

theorem hasDirectory_eq_isOk (t : FileTree) (p : Path) :
    t.hasDirectory p = (t.locateDirectory p).isOk := by
  unfold hasDirectory locateDirectory
  cases t.look p with
  | error e => rfl
  | ok found =>
    obtain ⟨loc, node⟩ := found
    cases node <;> rfl

/-! ## Children -/

/-- The entry of a directory that a location of the tree is, if it is one. -/
def childOf? (dir : Location) (entry : Location × Node) : Option (String × Node) :=
  match entry.1.getLast? with
  | some name => if entry.1.dropLast = dir then some (name, entry.2) else none
  | none => none

theorem children_eq (t : FileTree) (dir : Location) :
    t.children dir = t.nodes.filterMap (childOf? dir) := rfl

theorem childOf?_eq_some_iff {entry : Location × Node} {name : String} :
    childOf? dir entry = some (name, node) ↔ entry = (dir ++ [name], node) := by
  obtain ⟨l, other⟩ := entry
  rcases List.eq_nil_or_concat l with rfl | ⟨before, last, rfl⟩
  · simp [childOf?]
  · simp [childOf?, and_assoc]

theorem WellFormed.mem_children (ht : t.WellFormed) {name : String} :
    (name, node) ∈ t.children dir ↔ t.node? (dir ++ [name]) = some node := by
  rw [children_eq, List.mem_filterMap, ht.node?_eq_some_iff (by simp)]
  simp [childOf?_eq_some_iff]

theorem WellFormed.isName_of_mem_children (ht : t.WellFormed) {child : String × Node}
    (h : child ∈ t.children dir) : Path.IsName child.1 :=
  (ht.named _ (mem_names_of_node? (by simp) (ht.mem_children.1 h))).2 _ (by simp)

/-- No name comes twice in a directory. -/
theorem WellFormed.pairwise_children (ht : t.WellFormed) (dir : Location) :
    (t.children dir).Pairwise fun c d => c.1 ≠ d.1 := by
  rw [children_eq, List.pairwise_filterMap]
  refine (List.pairwise_map.1 ht.distinct).imp ?_
  rintro entry other hne ⟨name, node⟩ hchild ⟨name', node'⟩ hchild' rfl
  rw [childOf?_eq_some_iff] at hchild hchild'
  exact hne (by rw [hchild, hchild'])

/-! ## Depth -/

theorem length_le_depth (h : loc ∈ t.nodes.names) : loc.length ≤ t.depth := by
  have hle : ∀ lengths : List Nat, ∀ n ∈ lengths, n ≤ lengths.foldr max 0 := by
    intro lengths
    induction lengths with
    | nil => simp
    | cons m lengths ih =>
      intro n hn
      rw [List.foldr_cons]
      rcases List.mem_cons.1 hn with rfl | hn
      · exact Nat.le_max_left _ _
      · exact Nat.le_trans (ih n hn) (Nat.le_max_right _ _)
  obtain ⟨entry, hentry, rfl⟩ := List.mem_map.1 h
  exact hle _ _ (List.mem_map.2 ⟨entry, hentry, rfl⟩)

end FileTree

end CatalogAudit
