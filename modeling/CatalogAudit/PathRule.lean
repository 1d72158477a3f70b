/-
  CatalogAudit.PathRule — which relative paths a project includes or ignores.

  An entry with a wildcard is a glob. Any other entry is a literal path, brackets and all:
  it covers itself and what lies below it.
-/

import CatalogAudit.Glob
import CatalogAudit.Text.Basic

namespace CatalogAudit

inductive PathRule where
  | glob (tokens : List Glob.Token)
  | below (path : List Char)
  deriving DecidableEq, Repr

namespace PathRule

open Text

def hasWildcard (entry : String) : Bool := entry.toList.any fun c => c == '*' || c == '?'

/-- A path without the `./` it starts with, however often. -/
def dropHere : List Char → List Char
  | '.' :: '/' :: cs => dropHere cs
  | cs => cs

def parse (entry : String) : Except Glob.PatternError PathRule :=
  if hasWildcard entry then (Glob.parse entry).map .glob
  else .ok (.below (trim (· == '/') (dropHere entry.toList)))

/-- The text after `start`, if the text starts with it. -/
def after? : (start cs : List Char) → Option (List Char)
  | [], cs => some cs
  | _ :: _, [] => none
  | s :: start, c :: cs => if s = c then after? start cs else none

def covers : PathRule → String → Bool
  | .glob tokens, path => Glob.matchesText tokens path.toList
  | .below [], _ => true
  | .below start, path =>
    match after? start path.toList with
    | some [] => true
    | some (c :: _) => c == '/'
    | none => false

end PathRule

end CatalogAudit
