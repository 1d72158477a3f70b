/-
  CatalogAudit.Proofs.Usage.Bindings — what identifiers stand for after many bindings.

  An identifier stands for the namespace that it was bound to last (`namespaceOf?_bindAll`),
  and it stays where its first binding put it. One more binding leaves the names as they are
  or puts a new one at their end (`names_bind`), which is how the identifiers go on that are
  listed where they come first (`FirstsOf.concat`). So a run of bindings makes an ordered map
  of them: `bindings_keep_first_places` says what each of its questions is answered with.
-/

import CatalogAudit.Usage
import Mathlib.Data.Finset.Card
import Mathlib.Data.List.Induction

namespace CatalogAudit

/-- The last namespace that is given to an identifier in a list of both. -/
def lastNamespace? (pairs : List (String × String)) (identifier : String) : Option String :=
  ((pairs.filter (·.1 = identifier)).getLast?).map (·.2)

theorem lastNamespace?_concat (pairs : List (String × String)) (pair : String × String)
    (identifier : String) :
    lastNamespace? (pairs ++ [pair]) identifier =
      if pair.1 = identifier then some pair.2 else lastNamespace? pairs identifier := by
  by_cases h : pair.1 = identifier
  · simp [lastNamespace?, List.filter_append, h]
  · simp [lastNamespace?, List.filter_append, h]

namespace Bindings

/-- Binds the identifiers of a list, one after the other. -/
def bindAll (b : Bindings) (pairs : List (String × String)) : Bindings :=
  pairs.foldl (fun b pair => b.bind pair.1 pair.2) b

theorem bindAll_concat (b : Bindings) (pairs : List (String × String)) (pair : String × String) :
    b.bindAll (pairs ++ [pair]) = (b.bindAll pairs).bind pair.1 pair.2 := by
  rw [bindAll, List.foldl_append]
  rfl

theorem namespaceOf?_bind (b : Bindings) (identifier nspace other : String) :
    (b.bind identifier nspace).namespaceOf? other =
      if identifier = other then some nspace else b.namespaceOf? other := by
  by_cases h : identifier = other
  · subst h
    rw [if_pos rfl]
    exact Assoc.value?_put_self b.entries identifier nspace
  · rw [if_neg h]
    exact Assoc.value?_put_of_ne (Ne.symm h)

/-- The last binding of an identifier counts. -/
theorem namespaceOf?_bindAll (pairs : List (String × String)) (identifier : String) :
    (empty.bindAll pairs).namespaceOf? identifier = lastNamespace? pairs identifier := by
  induction pairs using List.reverseRecOn with
  | nil => rfl
  | append_singleton pairs pair ih =>
    rw [bindAll_concat, namespaceOf?_bind, lastNamespace?_concat, ih]

end Bindings

/-! ## Places -/

/-- The identifiers of `bound`, each of them where it comes first. -/
structure FirstsOf (names bound : List String) : Prop where
  mem_iff : ∀ name, name ∈ names ↔ name ∈ bound
  ordered : names.Pairwise fun name later => bound.idxOf name < bound.idxOf later

namespace FirstsOf

variable {names bound : List String}

theorem nodup (h : FirstsOf names bound) : names.Nodup := by
  refine h.ordered.imp ?_
  intro name later hlt e
  rw [e] at hlt
  exact Nat.lt_irrefl _ hlt

/-- One identifier more: the earlier ones keep their places, and it comes after them if it is
new. -/
theorem concat (h : FirstsOf names bound) (name : String) :
    FirstsOf (if name ∈ names then names else names ++ [name]) (bound ++ [name]) := by
  have hkept : ∀ earlier ∈ names, (bound ++ [name]).idxOf earlier = bound.idxOf earlier := by
    intro earlier hearlier
    exact List.idxOf_append_of_mem ((h.mem_iff earlier).1 hearlier)
  have hordered : names.Pairwise fun earlier later =>
      (bound ++ [name]).idxOf earlier < (bound ++ [name]).idxOf later := by
    refine h.ordered.imp_of_mem ?_
    intro earlier later hearlier hlater hlt
    rw [hkept earlier hearlier, hkept later hlater]
    exact hlt
  by_cases hname : name ∈ names
  · have hbound := (h.mem_iff name).1 hname
    rw [if_pos hname]
    refine ⟨?_, hordered⟩
    intro other
    rw [h.mem_iff, List.mem_append, List.mem_singleton]
    constructor
    · exact Or.inl
    · intro hother
      rcases hother with hother | rfl
      · exact hother
      · exact hbound
  · have hbound : name ∉ bound := fun hm => hname ((h.mem_iff name).2 hm)
    have hlast : (bound ++ [name]).idxOf name = bound.length := by
      rw [List.idxOf_append_of_notMem hbound, List.idxOf_cons_self, Nat.add_zero]
    rw [if_neg hname]
    refine ⟨?_, List.pairwise_append.2 ⟨hordered, List.pairwise_singleton _ _, ?_⟩⟩
    · intro other
      rw [List.mem_append, List.mem_append, h.mem_iff]
    · intro earlier hearlier later hlater
      rw [List.mem_singleton.1 hlater, hlast, hkept earlier hearlier]
      exact List.idxOf_lt_length_of_mem ((h.mem_iff earlier).1 hearlier)

/-- Nothing comes before what is bound first. -/
theorem head?_eq (h : FirstsOf names bound) : names.head? = bound.head? := by
  cases bound with
  | nil =>
    have hempty : names = [] := by
      refine List.eq_nil_iff_forall_not_mem.2 ?_
      intro name hname
      cases (h.mem_iff name).1 hname
    rw [hempty]
  | cons first bound =>
    have hfirst : first ∈ names := (h.mem_iff first).2 List.mem_cons_self
    cases hnames : names with
    | nil =>
      rw [hnames] at hfirst
      cases hfirst
    | cons name others =>
      have hordered := h.ordered
      rw [hnames] at hfirst hordered
      rcases List.mem_cons.1 hfirst with hsame | hlater
      · rw [hsame, List.head?_cons, List.head?_cons]
      · have hlt := (List.pairwise_cons.1 hordered).1 first hlater
        rw [List.idxOf_cons_self] at hlt
        exact absurd hlt (Nat.not_lt_zero _)

end FirstsOf

namespace Bindings

/-- A binding leaves the identifiers as they are or puts a new one at their end. -/
theorem names_bind (b : Bindings) (identifier nspace : String) :
    (b.bind identifier nspace).entries.names =
      if identifier ∈ b.entries.names then b.entries.names
      else b.entries.names ++ [identifier] :=
  Assoc.names_put b.entries identifier nspace

theorem firstsOf_bindAll (pairs : List (String × String)) :
    FirstsOf (empty.bindAll pairs).entries.names (pairs.map (·.1)) := by
  induction pairs using List.reverseRecOn with
  | nil => exact ⟨fun _ => Iff.rfl, List.Pairwise.nil⟩
  | append_singleton pairs pair ih =>
    rw [bindAll_concat, names_bind, List.map_append, List.map_singleton]
    exact ih.concat pair.1

/-- What stands beside an identifier is what it stands for. -/
theorem namespaceOf?_of_mem {b : Bindings} {entry : String × String} (h : entry ∈ b.entries) :
    b.namespaceOf? entry.1 = some entry.2 :=
  (Assoc.value?_eq_some_iff b.nodup).2 h

theorem firstNamespace?_eq (b : Bindings) :
    b.firstNamespace? = b.entries.names.head?.bind b.namespaceOf? := by
  rw [firstNamespace?, Assoc.names, List.head?_map]
  cases hfirst : b.entries.head? with
  | none => rfl
  | some entry => exact (namespaceOf?_of_mem (List.mem_of_head? hfirst)).symm

/-- Bindings that are made one after the other, from none on, are kept as an ordered map. Each
identifier that was bound is listed once, in the order of the first bindings, beside the
namespace of its last binding. There are as many entries as there are different identifiers.
An identifier stands for its last namespace, or for none if it was never bound, and the first
namespace is the last one of the identifier that was bound first. -/
theorem bindings_keep_first_places (pairs : List (String × String)) :
    (empty.bindAll pairs).entries.names.Nodup ∧
    (∀ identifier,
      identifier ∈ (empty.bindAll pairs).entries.names ↔ identifier ∈ pairs.map (·.1)) ∧
    ((empty.bindAll pairs).entries.names.Pairwise fun identifier later =>
      (pairs.map (·.1)).idxOf identifier < (pairs.map (·.1)).idxOf later) ∧
    (∀ entry ∈ (empty.bindAll pairs).entries, lastNamespace? pairs entry.1 = some entry.2) ∧
    (empty.bindAll pairs).size = (pairs.map (·.1)).toFinset.card ∧
    (∀ identifier,
      (empty.bindAll pairs).namespaceOf? identifier = lastNamespace? pairs identifier) ∧
    (empty.bindAll pairs).firstNamespace? =
      (pairs.map (·.1)).head?.bind (lastNamespace? pairs) := by
  have hfirsts := firstsOf_bindAll pairs
  have hlast : (empty.bindAll pairs).namespaceOf? = lastNamespace? pairs :=
    funext (namespaceOf?_bindAll pairs)
  refine ⟨hfirsts.nodup, hfirsts.mem_iff, hfirsts.ordered, ?_, ?_, congrFun hlast, ?_⟩
  · intro entry hentry
    rw [← hlast]
    exact namespaceOf?_of_mem hentry
  · have hsame :
        (pairs.map (·.1)).toFinset = (empty.bindAll pairs).entries.names.toFinset := by
      ext identifier
      rw [List.mem_toFinset, List.mem_toFinset, hfirsts.mem_iff]
    rw [hsame, List.toFinset_card_of_nodup hfirsts.nodup, Assoc.names, List.length_map, size]
  · rw [firstNamespace?_eq, hfirsts.head?_eq, hlast]

example :
    (empty.bindAll [("t", "common"), ("tHome", "home"), ("t", "footer")]).entries =
      [("t", "footer"), ("tHome", "home")] := rfl

end Bindings

end CatalogAudit
