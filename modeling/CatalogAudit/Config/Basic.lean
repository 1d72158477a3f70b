/-
  CatalogAudit.Config.Basic — the settings of a project.

  `Config.shape` lists the settings with their names in a config file; a setting that is
  not given keeps its default. `Config.toJson` writes them all, in the same order. A
  config is valid when its globs are well formed and its component names are made of
  letters, digits, `_`, `.` and `$`.
-/

import CatalogAudit.Json.Typed
import CatalogAudit.PathRule
import CatalogAudit.Scan.Source
import CatalogAudit.Text.Alphanumeric

namespace CatalogAudit

structure Config where
  sourceRoot : String
  includes : List String
  ignores : List String
  ignoreTestFiles : Bool
  messagesRoot : String
  /-- In report order; with none given, every catalog in `messagesRoot` is a locale. -/
  locales : List String
  defaultLocale : String
  logDir : String
  dynamicKeys : NameMap (List String)
  propertyKeyHints : List Hint
  keyComponents : List String
  localeRouteMarker : String
  deriving DecidableEq, Repr

namespace Config

def default : Config where
  sourceRoot := "./"
  includes := ["src"]
  ignores := []
  ignoreTestFiles := true
  messagesRoot := "./messages"
  locales := []
  defaultLocale := "en"
  logDir := "scripts"
  dynamicKeys := ∅
  propertyKeyHints := []
  keyComponents := ["FormattedMessage"]
  localeRouteMarker := "[locale]"

def scanRules (c : Config) : ScanRules :=
  ⟨c.dynamicKeys.entries, c.propertyKeyHints, c.keyComponents, c.localeRouteMarker⟩

/-! ## Reading -/

open Json

/-- A field that need not be given. -/
def field {σ α : Type} (name : String) (value : Step α) (set : σ → α → σ)
    (aliases : List String) (required : Bool) : Json.Field σ :=
  ⟨name, aliases, required, fun r cs => do
    let (v, cs) ← value cs
    .ok (set r v, cs)⟩

def texts : Step (List String) := typedList typedString

def hintShape : Shape Hint where
  title := "struct PropertyKeyHint"
  fields := [
    field "markers" texts (fun h v => { h with markers := v }) [] true,
    field "keys" texts (fun h v => { h with keys := v }) [] true]
  blank := ⟨[], []⟩

def shape : Shape Config where
  title := "struct Config"
  fields := [
    field "sourceRoot" typedString (fun c v => { c with sourceRoot := v }) [] false,
    field "includes" texts (fun c v => { c with includes := v }) [] false,
    field "ignores" texts (fun c v => { c with ignores := v }) [] false,
    field "ignoreTestFiles" typedBool (fun c v => { c with ignoreTestFiles := v }) [] false,
    field "messagesRoot" typedString (fun c v => { c with messagesRoot := v })
      ["messagesDir"] false,
    field "locales" texts (fun c v => { c with locales := v }) [] false,
    field "defaultLocale" typedString (fun c v => { c with defaultLocale := v })
      ["primaryLocale"] false,
    field "logDir" typedString (fun c v => { c with logDir := v }) [] false,
    field "dynamicKeys" (typedMap texts) (fun c v => { c with dynamicKeys := v }) [] false,
    field "propertyKeyHints" (typedList hintShape.read)
      (fun c v => { c with propertyKeyHints := v }) [] false,
    field "keyComponents" texts (fun c v => { c with keyComponents := v }) [] false,
    field "localeRouteMarker" typedString (fun c v => { c with localeRouteMarker := v }) [] false]
  blank := default

def ofText (text : String) : Except SyntaxError Config := readWhole shape.read text

/-! ## Writing -/

def textsJson (xs : List String) : Json := .arr (xs.map .str)

def hintJson (h : Hint) : Json :=
  .obj [("markers", textsJson h.markers), ("keys", textsJson h.keys)]

def toJson (c : Config) : Json := .obj [
  ("sourceRoot", .str c.sourceRoot),
  ("includes", textsJson c.includes),
  ("ignores", textsJson c.ignores),
  ("ignoreTestFiles", .bool c.ignoreTestFiles),
  ("messagesRoot", .str c.messagesRoot),
  ("locales", textsJson c.locales),
  ("defaultLocale", .str c.defaultLocale),
  ("logDir", .str c.logDir),
  ("dynamicKeys", .obj (c.dynamicKeys.entries.map fun (key, leaves) => (key, textsJson leaves))),
  ("propertyKeyHints", .arr (c.propertyKeyHints.map hintJson)),
  ("keyComponents", textsJson c.keyComponents),
  ("localeRouteMarker", .str c.localeRouteMarker)]

/-! ## Validity -/

inductive Invalid where
  | ignorePattern (entry : String) (error : Glob.PatternError)
  | includePattern (entry : String) (error : Glob.PatternError)
  | component (name : String)
  deriving DecidableEq, Repr

def Invalid.message : Invalid → String
  | .ignorePattern entry e =>
    "Invalid glob pattern in 'ignores': \"" ++ entry ++ "\": " ++ e.message
  | .includePattern entry e =>
    "Invalid glob pattern in 'includes': \"" ++ entry ++ "\": " ++ e.message
  | .component name => "Invalid component name in 'keyComponents': \"" ++ name ++ "\""

def isComponentChar (c : Char) : Bool :=
  Text.isAlphanumeric c || c == '_' || c == '.' || c == '$'

def isComponentName (name : String) : Bool := name != "" && name.toList.all isComponentChar

/-- The first entry whose pattern is faulty. -/
def faultyEntry? (entries : List String) : Option (String × Glob.PatternError) :=
  entries.findSome? fun entry =>
    match PathRule.parse entry with
    | .ok _ => none
    | .error e => some (entry, e)

/-- The first thing that is wrong: ignores, then includes, then component names. -/
def invalid? (c : Config) : Option Invalid :=
  match faultyEntry? c.ignores with
  | some (entry, e) => some (.ignorePattern entry e)
  | none =>
    match faultyEntry? c.includes with
    | some (entry, e) => some (.includePattern entry e)
    | none => (c.keyComponents.find? (!isComponentName ·)).map .component

end Config

end CatalogAudit
