/-
  CatalogAudit.Surplus — what the catalogs hold and no source uses, and its removal.

  Surplus are the top-level entries that are no used namespace and the keys of leaves that
  are no used key. To prune a catalog is to delete its surplus keys one by one, then its
  surplus namespaces, then the containers that are left without a leaf. A trial run finds
  the same removals and changes nothing. When a catalog cannot be saved the others still
  are; `refused` says which files the file system will not write.
-/

import CatalogAudit.Catalog.Basic
import CatalogAudit.Usage

namespace CatalogAudit

/-! ## Surplus entries -/

structure LocaleSurplus where
  locale : String
  namespaces : List String
  keys : List String
  deriving DecidableEq, Repr

def LocaleSurplus.isEmpty (s : LocaleSurplus) : Bool := s.namespaces.isEmpty && s.keys.isEmpty

/-- The surplus of each catalog, in order. -/
abbrev Surplus := List LocaleSurplus

def Catalog.surplus (usage : Usage) (c : Catalog) : LocaleSurplus :=
  ⟨c.locale, c.namespaces.filter (!usage.namespaces.has ·), c.keys.filter (!usage.keys.has ·)⟩

namespace Surplus

def ofCatalogs (usage : Usage) (catalogs : List Catalog) : Surplus :=
  catalogs.map (·.surplus usage)

def isAny (s : Surplus) : Bool := s.any (!·.isEmpty)

def of? (s : Surplus) (locale : String) : Option LocaleSurplus := s.find? (·.locale = locale)

end Surplus

/-! ## Removal from one catalog -/

/-- What was deleted, and the catalog that is left. -/
structure Pruning where
  catalog : Catalog
  keys : List String
  namespaces : List String
  deriving Repr

def Catalog.prune (c : Catalog) (s : LocaleSurplus) : Pruning :=
  let keys := c.root.deleteEach s.keys
  let namespaces := Members.deleteTopEach keys.2 s.namespaces
  have distinct := Members.hasDistinctKeys_deleteTopEach
    (Members.hasDistinctKeys_deleteEach c.distinct s.keys) s.namespaces
  ⟨c.withRoot namespaces.2.pruned (Members.hasDistinctKeys_pruned distinct), keys.1, namespaces.1⟩

/-! ## Removal from all catalogs -/

/-- What became of a catalog's file. -/
inductive Saving where
  | untouched
  | saved
  | failed (error : Catalog.SaveError)
  deriving DecidableEq, Repr

/-- What was removed from a locale, or would be. -/
structure Removal where
  locale : String
  keys : List String
  namespaces : List String
  saving : Saving
  deriving DecidableEq, Repr

namespace Removal

def none (locale : String) : Removal := ⟨locale, [], [], .untouched⟩

def isEmpty (r : Removal) : Bool := r.keys.isEmpty && r.namespaces.isEmpty

def isSaved (r : Removal) : Bool := r.saving = .saved

def saveError? (r : Removal) : Option Catalog.SaveError :=
  match r.saving with
  | .failed e => some e
  | _ => Option.none

end Removal

inductive Mode where
  /-- Nothing is changed. -/
  | trial
  | remove
  deriving DecidableEq, Repr

/-- The files, the catalogs and the removals after a run. -/
structure PruneResult where
  tree : FileTree
  catalogs : List Catalog
  removals : List Removal

section
variable (refused : Path → Option FileError)

/-- Saves a catalog, unless the file system refuses to write its file. -/
def Catalog.saveUnless (c : Catalog) (tree : FileTree) : Except Catalog.SaveError FileTree :=
  match refused c.file with
  | some e => .error ⟨c.file, e⟩
  | none => c.save tree

/-- The turn of a catalog in a run: what becomes of the files and of the catalog, and what was
removed. A catalog without surplus is left alone. -/
def Catalog.handleUnless (c : Catalog) (entry : Option LocaleSurplus) (mode : Mode)
    (tree : FileTree) : FileTree × Catalog × Removal :=
  match entry.filter (!·.isEmpty) with
  | none => (tree, c, .none c.locale)
  | some s =>
    let p := c.prune s
    match mode with
    | .trial => (tree, c, ⟨c.locale, p.keys, p.namespaces, .untouched⟩)
    | .remove =>
      match p.catalog.saveUnless refused tree with
      | .ok tree => (tree, p.catalog, ⟨c.locale, p.keys, p.namespaces, .saved⟩)
      | .error e => (tree, p.catalog, ⟨c.locale, p.keys, p.namespaces, .failed e⟩)

/-- Removes the surplus of each catalog, in order, where some files cannot be written. -/
def Surplus.pruneUnless (s : Surplus) (mode : Mode) : FileTree → List Catalog → PruneResult
  | tree, [] => ⟨tree, [], []⟩
  | tree, c :: catalogs =>
    let (tree, d, removal) := c.handleUnless refused (s.of? c.locale) mode tree
    let r := s.pruneUnless mode tree catalogs
    ⟨r.tree, d :: r.catalogs, removal :: r.removals⟩

end

/-- Removes the surplus of each catalog, in order; no write is refused beyond those that the tree
itself stands in the way of. -/
def Surplus.prune (s : Surplus) (mode : Mode) (tree : FileTree) (catalogs : List Catalog) :
    PruneResult :=
  s.pruneUnless (fun _ => none) mode tree catalogs

/-! ## Totals -/

structure Totals where
  keys : Nat
  namespaces : Nat
  filesSaved : Nat
  deriving DecidableEq, Repr

def Totals.ofRemovals (rs : List Removal) : Totals :=
  ⟨(rs.map (·.keys.length)).foldr (· + ·) 0, (rs.map (·.namespaces.length)).foldr (· + ·) 0,
    (rs.filter (·.isSaved)).length⟩

end CatalogAudit
