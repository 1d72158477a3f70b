/-
  CatalogAudit.Catalog.Basic — the catalog of one locale, and its file.

  A catalog is read from `<locale>.json` in the messages directory and written back there,
  one entry a line, in the order in which it was read. No object in it has a key twice: the
  reader sees to that, and nothing that is done with a catalog changes it.
-/

import CatalogAudit.Catalog.Entries
import CatalogAudit.FileTree
import CatalogAudit.Json.Writer
import CatalogAudit.NameSet
import CatalogAudit.Proofs.Json.DistinctKeys

namespace CatalogAudit

@[ext]
structure Catalog where
  locale : String
  file : Path
  root : Members
  distinct : root.hasDistinctKeys = true
  deriving Repr

namespace Catalog

/-! ## Entries -/

def namespaces (c : Catalog) : List String := c.root.names

def keys (c : Catalog) : List String := c.root.leafKeys

def hasNamespace (c : Catalog) (nspace : String) : Bool := c.root.has nspace

/-- Whether a dotted key names an entry, leaf or container. -/
def hasKey (c : Catalog) (key : String) : Bool := c.root.hasEntry (keySegments key)

def withRoot (c : Catalog) (root : Members) (h : root.hasDistinctKeys = true) : Catalog :=
  ⟨c.locale, c.file, root, h⟩

def deleteKey? (c : Catalog) (key : String) : Option Catalog :=
  (c.root.delete? (keySegments key)).pmap c.withRoot fun _ =>
    Members.hasDistinctKeys_delete? c.distinct

def deleteNamespace? (c : Catalog) (nspace : String) : Option Catalog :=
  if c.root.has nspace then
    some (c.withRoot (c.root.without nspace) (Members.hasDistinctKeys_without c.distinct nspace))
  else none

def pruned (c : Catalog) : Catalog :=
  c.withRoot c.root.pruned (Members.hasDistinctKeys_pruned c.distinct)

/-! ## Reading and writing -/

def text (c : Catalog) : String := (Json.obj c.root).text .pretty ++ "\n"

/-- The file of a locale. -/
def fileOf (dir : Path) (locale : String) : Path := dir.child (locale ++ ".json")

inductive LoadCause where
  | unreadable (error : FileError)
  | malformed (error : Json.SyntaxError)
  | notObject
  deriving DecidableEq, Repr

/-- A locale whose catalog could not be loaded. -/
structure LoadFailure where
  locale : String
  file : Path
  cause : LoadCause
  deriving DecidableEq, Repr

def LoadFailure.message (f : LoadFailure) : String :=
  let catalog := "catalog for locale '" ++ f.locale ++ "' (" ++ f.file.text ++ ")"
  match f.cause with
  | .unreadable e => "cannot read " ++ catalog ++ ": " ++ e.message
  | .malformed e => "cannot parse " ++ catalog ++ ": " ++ e.message
  | .notObject => catalog ++ " is not a JSON object"

/-- The entries in the text of a catalog file. -/
def rootOfText (text : String) : Except LoadCause Members :=
  match Json.ofText text with
  | .ok (.obj root) => .ok root
  | .ok _ => .error .notObject
  | .error e => .error (.malformed e)

theorem ofText_of_rootOfText {text : String} {root : Members} (h : rootOfText text = .ok root) :
    Json.ofText text = .ok (.obj root) := by
  unfold rootOfText at h
  -- the reader is put aside, so that the cases are those of its result alone
  generalize Json.ofText text = read at h ⊢
  cases read with
  | error e => cases h
  | ok v =>
    cases v <;> cases h
    rfl

theorem hasDistinctKeys_rootOfText {text : String} {root : Members}
    (h : rootOfText text = .ok root) : root.hasDistinctKeys = true :=
  Json.hasDistinctKeys_ofText (ofText_of_rootOfText h)

/-- The catalog in the text of its file. -/
def ofText (locale : String) (file : Path) (text : String) : Except LoadCause Catalog :=
  match h : rootOfText text with
  | .ok root => .ok ⟨locale, file, root, hasDistinctKeys_rootOfText h⟩
  | .error cause => .error cause

/-- The catalog in the content of its file. -/
def ofContent (locale : String) (file : Path) (content : ByteArray) : Except LoadCause Catalog :=
  (FileTree.textOf content).mapError .unreadable >>= ofText locale file

def load (tree : FileTree) (dir : Path) (locale : String) : Except LoadFailure Catalog :=
  let file := fileOf dir locale
  ((tree.read file).mapError .unreadable >>= ofContent locale file).mapError (⟨locale, file, ·⟩)

/-- The file cannot be written. -/
structure SaveError where
  file : Path
  error : FileError
  deriving DecidableEq, Repr

def SaveError.message (e : SaveError) : String :=
  "Failed to write file: " ++ e.file.text ++ ": " ++ e.error.message

def save (c : Catalog) (tree : FileTree) : Except SaveError FileTree :=
  (tree.writeText c.file c.text).mapError (⟨c.file, ·⟩)

/-! ## All catalogs of a run -/

/-- The catalogs that could be loaded and the locales that failed, each in order. -/
structure Store where
  catalogs : List Catalog
  failures : List LoadFailure
  deriving Repr

def loadAll (tree : FileTree) (dir : Path) (locales : List String) : Store :=
  let results := locales.map (load tree dir)
  ⟨results.filterMap fun
      | .ok c => some c
      | .error _ => none,
    results.filterMap fun
      | .ok _ => none
      | .error e => some e⟩

/-- Moves a name to the front of a list that holds it. -/
def moveToFront (name : String) (names : List String) : List String :=
  if name ∈ names then name :: names.erase name else names

/-- The locale whose catalog a file is, if its name is that of one. -/
def localeOf? (file : Path) : Option String :=
  if file.extension? = some "json" then file.stem? else none

/-- The locales with a catalog in a directory, in order, but the default one first. -/
def discover (tree : FileTree) (dir : Path) (defaultLocale : String) : List String :=
  match tree.locateDirectory dir with
  | .error _ => []
  | .ok loc =>
    let files := ((tree.children loc).map fun child => dir.child child.1).filter tree.hasFile
    moveToFront defaultLocale (NameSet.ofList (files.filterMap localeOf?)).toList

end Catalog

end CatalogAudit
