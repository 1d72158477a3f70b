/-
  CatalogAudit.Consistency — what the catalogs lack.

  A catalog lacks a used namespace that is no top-level entry of it and a used key that
  names no entry of it. Besides, every two catalogs are compared: a key of a leaf in one
  that is no key of a leaf in the other is exclusive to the first.
-/

import CatalogAudit.Catalog.Basic
import CatalogAudit.Usage

namespace CatalogAudit

/-- What one catalog lacks of what is used. -/
structure Gaps where
  locale : String
  namespaces : List String
  keys : List String
  deriving DecidableEq, Repr

/-- The keys of one locale that another one lacks. -/
structure Exclusive where
  locale : String
  other : String
  keys : List String
  deriving DecidableEq, Repr

structure Consistency where
  gaps : List Gaps
  /-- For each catalog and each other one, in order. -/
  exclusive : List Exclusive
  deriving DecidableEq, Repr

def Catalog.gaps (usage : Usage) (c : Catalog) : Gaps :=
  ⟨c.locale, usage.namespaces.toList.filter (!c.hasNamespace ·),
    usage.keys.toList.filter (!c.hasKey ·)⟩

def Catalog.exclusive (c other : Catalog) : Exclusive :=
  let others := other.keys
  ⟨c.locale, other.locale, c.keys.filter (!others.contains ·)⟩

/-- Each item with the items at the other places. -/
def pairsBetween {α : Type} (xs : List α) : List (α × α) :=
  xs.zipIdx.flatMap fun (x, i) =>
    (xs.zipIdx.filter fun (_, j) => i != j).map fun (y, _) => (x, y)

namespace Consistency

def ofCatalogs (usage : Usage) (catalogs : List Catalog) : Consistency :=
  ⟨catalogs.map (·.gaps usage), (pairsBetween catalogs).map fun (c, d) => c.exclusive d⟩

def hasIssues (r : Consistency) : Bool :=
  r.gaps.any (fun g => !g.namespaces.isEmpty || !g.keys.isEmpty) ||
    r.exclusive.any fun e => !e.keys.isEmpty

def issueCount (r : Consistency) : Nat :=
  (r.gaps.map fun g => g.namespaces.length + g.keys.length).foldr (· + ·) 0 +
    (r.exclusive.map fun e => e.keys.length).foldr (· + ·) 0

end Consistency

end CatalogAudit
