/-
  CatalogAudit.Report — the findings of a run as log messages.
-/

import CatalogAudit.Consistency
import CatalogAudit.Log
import CatalogAudit.Surplus
import CatalogAudit.Text.Width.Sequence

namespace CatalogAudit.Report

open Log

def checkMark : String := "✓"

def crossMark : String := "✘"

def noticeMark : String := "!"

def counted (n : Nat) (one many : String) : String :=
  toString n ++ " " ++ if n = 1 then one else many

def keyCount (n : Nat) : String := counted n "key" "keys"

def namespaceCount (n : Nat) : String := counted n "namespace" "namespaces"

def items (xs : List String) : List String := xs.map ("  - " ++ ·)

/-! ## Usage -/

/-- The bindings of a file, the namespaces one below the other. -/
def bindingLines (b : Bindings) : List String :=
  let width := fun (identifier : String) => Text.width identifier.toList
  let widest := (b.entries.map fun e => width e.1).foldl max 0
  b.entries.map fun (identifier, nspace) =>
    "    - " ++ identifier ++ String.ofList (List.replicate (widest - width identifier) ' ') ++
      " => " ++ nspace

def underHeading (heading : String) (lines : List String) : List String :=
  if lines.isEmpty then [] else heading :: lines

/-- What a file uses; nothing for a file that uses nothing. -/
def fileUsage (displayPath : String) (u : FileUsage) : Log :=
  if u.isEmpty then []
  else infos (
    ("In file " ++ displayPath ++ ":") ::
    underHeading "  Translation functions:" (bindingLines u.bindings) ++
    underHeading "  Keys:" (u.keys.map ("    - " ++ ·)) ++
    u.notes.map fun n => "  [dynamic key] " ++ n.kind.label ++ ": " ++ n.expression)

def usageSummary (u : Usage) : Log := infos [
  "Found " ++ keyCount u.keys.size ++ " used in code",
  "Found " ++ namespaceCount u.namespaces.size ++ " used in code: " ++
    Text.joined ", " u.namespaces.toList]

/-! ## Consistency -/

def endOfReport : List String := ["", "=== End of Report ===", ""]

def missingNamespaces (g : Gaps) : List String :=
  if g.namespaces.isEmpty then [checkMark ++ " " ++ g.locale ++ " contains all used namespaces"]
  else (crossMark ++ " " ++ g.locale ++ " is missing namespaces:") :: items g.namespaces

def missingKeys (g : Gaps) : List String :=
  "" ::
    if g.keys.isEmpty then [checkMark ++ " " ++ g.locale ++ " contains all used keys"]
    else (crossMark ++ " " ++ g.locale ++ " is missing keys:") :: items g.keys

def exclusiveKeys (e : Exclusive) : List String :=
  if e.keys.isEmpty then []
  else
    "" :: (noticeMark ++ " Keys only in " ++ e.locale ++ " (not in " ++ e.other ++ "):") ::
      items e.keys

def consistency (r : Consistency) : Log := infos (
  ["", "=== Translation Check Report ===", ""] ++
  r.gaps.flatMap missingNamespaces ++
  r.gaps.flatMap missingKeys ++
  r.exclusive.flatMap exclusiveKeys ++
  endOfReport)

/-! ## Surplus -/

def surplusCounts (s : LocaleSurplus) : List String := [
  "",
  "Found " ++ counted s.keys.length "unused key" "unused keys" ++ " in " ++ s.locale,
  "Found " ++ counted s.namespaces.length "unused namespace" "unused namespaces" ++ " in " ++
    s.locale]

/-- What was removed from a locale, or why it could not be saved. -/
def removed (r : Removal) : Log :=
  match r.saveError? with
  | some e => [error ("Failed to save catalog for " ++ r.locale ++ ": " ++ e.message)]
  | none =>
    infos (
      r.namespaces.map (fun n => "Removed unused namespace from " ++ r.locale ++ ": " ++ n) ++
      if r.isSaved then
        ["Removed " ++ counted r.keys.length "unused key" "unused keys" ++ " from " ++ r.locale]
      else [])

def wouldRemove (r : Removal) : List String :=
  if r.isEmpty then []
  else ["Would remove " ++ keyCount r.keys.length ++ " and " ++
    namespaceCount r.namespaces.length ++ " from " ++ r.locale]

/-- The counts of each locale, then the removals. -/
def removals (s : Surplus) (rs : List Removal) (mode : Mode) : Log :=
  infos (s.flatMap surplusCounts ++ [""]) ++
  match mode with
  | .remove => info "Removing unused translation keys..." :: rs.flatMap removed
  | .trial =>
    infos (rs.flatMap wouldRemove ++ ["To delete unused keys, run again with --remove"])

/-- The keys that were removed from a locale whose catalog was saved. -/
def removedKeys (rs : List Removal) (locale : String) : List String :=
  match rs.find? (·.locale = locale) with
  | none => []
  | some r =>
    if r.isSaved && !r.keys.isEmpty then
      "" :: ("Keys removed from " ++ locale ++ ":") :: items r.keys
    else []

def localeSurplus (rs : List Removal) (mode : Mode) (s : LocaleSurplus) : List String :=
  (if s.namespaces.isEmpty then [checkMark ++ " " ++ s.locale ++ " has no unused namespaces"]
    else (noticeMark ++ " Unused namespaces in " ++ s.locale ++ ":") :: items s.namespaces) ++
  [""] ++
  (if s.keys.isEmpty then [checkMark ++ " " ++ s.locale ++ " has no unused keys"]
    else (noticeMark ++ " Unused keys in " ++ s.locale ++ ":") :: items s.keys) ++
  match mode with
  | .remove => removedKeys rs s.locale
  | .trial => []

def surplus (s : Surplus) (rs : List Removal) (mode : Mode) : Log := infos (
  ["", "=== Unused Translation Keys Report ===", ""] ++
  s.flatMap (localeSurplus rs mode) ++
  endOfReport)

end CatalogAudit.Report
