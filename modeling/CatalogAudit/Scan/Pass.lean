/-
  CatalogAudit.Scan.Pass — the passes over a source file.

  Six passes find usage, one after the other, each over the whole text. The first two bind
  identifiers; the others see the bindings of the whole file, wherever they stand.
-/

import CatalogAudit.FileTree
import CatalogAudit.Scan.Attribute
import CatalogAudit.Scan.Binding
import CatalogAudit.Scan.Lookup
import CatalogAudit.Usage

namespace CatalogAudit

inductive Pass where
  | namespaceCall
  | hookCall
  | literalKey
  | templateKey
  | propertyKey
  | componentKey
  deriving DecidableEq, Repr

namespace Pass

def all : List Pass :=
  [.namespaceCall, .hookCall, .literalKey, .templateKey, .propertyKey, .componentKey]

def name : Pass → String
  | .namespaceCall => "namespace-call"
  | .hookCall => "hook-call"
  | .literalKey => "literal-key"
  | .templateKey => "template-key"
  | .propertyKey => "property-key"
  | .componentKey => "component-key"

def finder (rules : ScanRules) : Pass → Finder
  | .namespaceCall => Scan.namespaceCalls
  | .hookCall => Scan.hookCalls
  | .literalKey => Scan.literalKeys
  | .templateKey => Scan.templateKeys rules
  | .propertyKey => Scan.propertyKeys rules
  | .componentKey => Scan.componentKeys rules

end Pass

namespace Scan

/-- The path of a file as route directories are looked for in it: every backslash is a slash. -/
def routePath (file : Path) : List Char :=
  file.text.toList.map fun c => if c = '\\' then '/' else c

/-- What a file with this text uses. -/
def scanText (rules : ScanRules) (file : Path) (text : String) : FileUsage :=
  Pass.all.foldl (fun u pass => pass.finder rules ⟨routePath file, text.toList⟩ u)
    (FileUsage.empty file)

/-- A file that could not be read. -/
structure UnreadFile where
  file : Path
  error : FileError
  deriving DecidableEq, Repr

def UnreadFile.message (f : UnreadFile) : String :=
  "failed to read " ++ f.file.text ++ ": " ++ f.error.message

def scanFile (rules : ScanRules) (tree : FileTree) (file : Path) : Except UnreadFile FileUsage :=
  match tree.readText file with
  | .ok text => .ok (scanText rules file text)
  | .error e => .error ⟨file, e⟩

/-- Usage and errors of several files, each in the order of the files. -/
structure FilesUsage where
  usages : List FileUsage
  errors : List UnreadFile
  deriving DecidableEq, Repr

def scanFiles (rules : ScanRules) (tree : FileTree) (files : List Path) : FilesUsage :=
  let results := files.map (scanFile rules tree)
  ⟨results.filterMap fun
      | .ok u => some u
      | .error _ => none,
    results.filterMap fun
      | .ok _ => none
      | .error e => some e⟩

end Scan

end CatalogAudit
