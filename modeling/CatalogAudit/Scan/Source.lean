/-
  CatalogAudit.Scan.Source — a source file as the scanner sees it, and what a project tells
  the scanner about its sources.
-/

import CatalogAudit.Scan.Shape
import CatalogAudit.Usage

namespace CatalogAudit

/-! ## Rules -/

/-- Keys that count as used in a file that holds one of the markers, where a key is looked
up through a property whose value cannot be traced. -/
structure Hint where
  markers : List String
  keys : List String
  deriving DecidableEq, Repr

/-- A hint applies to a text that holds one of its markers. -/
def Hint.applies (hint : Hint) (text : List Char) : Bool :=
  hint.markers.any fun marker => Text.occurs marker.toList text

structure ScanRules where
  /-- The last segments that a template key may have, by what comes before them. -/
  dynamicKeys : Assoc String (List String)
  hints : List Hint
  /-- Components whose `id` attribute is a key. -/
  components : List String
  /-- The directory whose subdirectory names the namespace of a page. -/
  routeMarker : String
  deriving DecidableEq, Repr

/-! ## Sources -/

structure Source where
  /-- The path of the file, with slashes between its segments. -/
  path : List Char
  text : List Char
  deriving DecidableEq, Repr

/-- One way to find usage: adds what it finds in a source to what is known of the file. -/
abbrev Finder := Source → FileUsage → FileUsage

namespace Source

open Text

/-- Paths are no keys. -/
def isPlausibleKey (key : List Char) : Bool := !key.isEmpty && !key.contains '/'

/-- The key `key` of a namespace. -/
def fullKey (nspace key : String) : String := nspace ++ "." ++ key

/-- Goes through the matches of a shape in a text, with the fields of each as strings. -/
def eachMatch (shape : Pattern) (text : List Char)
    (f : FileUsage → (before : List Char) → (fields : List String) → FileUsage) (u : FileUsage) :
    FileUsage :=
  (shape.findAll text).foldl (fun u m => f u m.before (m.fields.map String.ofList)) u

end Source

end CatalogAudit
