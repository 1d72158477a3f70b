/-
  CatalogAudit.SourceFiles — the source files below a root.

  A source file is a regular file with a script extension that is no type declaration and
  does not lie in a directory of dependencies. It is listed when some include rule covers
  its path below the root, or there is no such rule, and no ignore rule does. Files are
  listed in the order of their paths. A directory is opened by its path, as it is spelled
  from the root; one that cannot be opened is skipped with all that is in it, and listed so.
-/

import CatalogAudit.FileTree
import CatalogAudit.PathRule

namespace CatalogAudit

namespace SourceFiles

def extensions : List String := ["tsx", "ts", "jsx", "js", "mjs", "cjs"]

/-- Directories of dependencies and of generated code. -/
def dependencyDirectories : List String :=
  ["node_modules", "bower_components", "vendor", ".git", ".next"]

def testFilePatterns : List String := ["**/*.test.*", "**/*.spec.*", "**/__tests__/**"]

/-! ## Names -/

def isDeclaration (name : String) : Bool := ".d.ts".toList.isSuffixOf name.toList

/-- Whether a name, given by its bytes, is that of a source file. The extension alone has to be
a text; a name that is none is never taken for that of a declaration. -/
def isSourceName (name : List UInt8) : Bool :=
  !(Text.ofBytes? name).any isDeclaration &&
    (Path.splitName '.'.toUInt8 name).2.any fun ending =>
      (Text.ofBytes? ending).any extensions.contains

def isSource (file : Path) : Bool := file.fileName?.any fun name => isSourceName (Text.bytes name)

/-! ## Rules -/

/-- The rules among the entries, and the faulty patterns with what is wrong with them. -/
def rules (entries : List String) : List PathRule × List (String × Glob.PatternError) :=
  (entries.filterMap fun entry => (PathRule.parse entry).toOption,
    entries.filterMap fun entry =>
      match PathRule.parse entry with
      | .ok _ => none
      | .error e => some (entry, e))

def faultyPattern (fault : String × Glob.PatternError) : String :=
  "Invalid glob pattern '" ++ fault.1 ++ "': " ++ fault.2.message

structure Selection where
  includes : List String
  ignores : List String
  ignoreTestFiles : Bool
  deriving DecidableEq, Repr

def Selection.ignoreRules (s : Selection) : List PathRule :=
  (rules s.ignores).1 ++ if s.ignoreTestFiles then (rules testFilePatterns).1 else []

/-- Whether a path below the root is selected. -/
def Selection.selects (s : Selection) (path : String) : Bool :=
  let included := (rules s.includes).1
  (included.isEmpty || included.any (·.covers path)) && !s.ignoreRules.any (·.covers path)

/-- What is wrong with the patterns, one line each. -/
def Selection.warnings (s : Selection) : List String :=
  ((rules s.includes).2 ++ (rules s.ignores).2).map faultyPattern

/-! ## Files -/

/-- A directory below the root that cannot be opened. -/
structure Skipped where
  dir : Path
  error : FileError
  deriving DecidableEq, Repr

def Skipped.message (s : Skipped) : String :=
  "Cannot access path: IO error for operation on " ++ s.dir.text ++ ": " ++ s.error.message

/-- What a walk comes upon: regular files, and directories that it has to skip. -/
abbrev Visit := Except Skipped Path

/-- What is in a directory and below it, spelled from `dir`. A directory of dependencies is left
out with all that is in it. No way down is longer than `steps`. -/
def walkWithin (tree : FileTree) : (steps : Nat) → (dir : Path) → List Visit
  | 0, _ => []
  | steps + 1, dir =>
    match tree.locateDirectory dir with
    | .error e => [.error ⟨dir, e⟩]
    | .ok loc =>
      (tree.children loc).flatMap fun (name, node) =>
        match node with
        | .file _ => [.ok (dir.child name)]
        | .directory =>
          if dependencyDirectories.contains name then []
          else walkWithin tree steps (dir.child name)
        | .device => []

/-- A walk through all that is below a root directory. -/
def walk (tree : FileTree) (root : Path) : List Visit := walkWithin tree (tree.depth + 1) root

/-- The source root cannot be read. -/
structure UnreadRoot where
  root : Path
  error : FileError
  deriving DecidableEq, Repr

def UnreadRoot.message (e : UnreadRoot) : String :=
  "cannot read source root " ++ e.root.text ++ ": " ++ e.error.message

/-- The source files in order, and the directories that were skipped as they came. -/
structure Listing where
  files : List Path
  skipped : List Skipped
  deriving DecidableEq, Repr

/-- The files that a walk came upon. -/
def filesOf (visits : List Visit) : List Path :=
  visits.filterMap fun
    | .ok file => some file
    | .error _ => none

def skippedOf (visits : List Visit) : List Skipped :=
  visits.filterMap fun
    | .ok _ => none
    | .error s => some s

def list (tree : FileTree) (root : Path) (s : Selection) : Except UnreadRoot Listing :=
  match tree.locateDirectory root with
  | .error e => .error ⟨root, e⟩
  | .ok _ =>
    let visits := walk tree root
    .ok ⟨((filesOf visits).filter fun file =>
        isSource file && s.selects (file.relativeTo root)).mergeSort Path.le,
      skippedOf visits⟩

end SourceFiles

end CatalogAudit
