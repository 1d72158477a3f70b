/-
  CatalogAudit.Config.File — the config file of a project.

  It is looked for in a directory, then in its parent and so on, by the spelling of the
  path. The search ends at the first directory that holds a config file or a `.git`.
-/

import CatalogAudit.Config.Basic
import CatalogAudit.FileTree

namespace CatalogAudit.Config

def fileName : String := ".transcheckrc.json"

/-- The config file in the first directory that holds one, unless a `.git` comes before it. -/
def findIn (tree : FileTree) : (dirs : List Path) → Option Path
  | [] => none
  | dir :: dirs =>
    if tree.has (dir.child fileName) then some (dir.child fileName)
    else if tree.has (dir.child ".git") then none
    else findIn tree dirs

def find? (tree : FileTree) (start : Path) : Option Path := findIn tree (start :: start.parents)

inductive LoadError where
  | unreadable (error : FileError)
  | malformed (file : Path) (error : Json.SyntaxError)
  | invalid (reason : Invalid)
  deriving DecidableEq, Repr

def LoadError.message : LoadError → String
  | .unreadable e => e.message
  | .malformed file e =>
    "Failed to parse config file: " ++ Text.quoted file.text ++ ": " ++ e.message
  | .invalid reason => reason.message

/-- A config, and whether it comes from a file. -/
structure Loaded where
  config : Config
  fromFile : Bool
  deriving DecidableEq, Repr

def loadFile (tree : FileTree) (file : Path) : Except LoadError Config := do
  let text ← (tree.readText file).mapError .unreadable
  let config ← (ofText text).mapError (.malformed file)
  match config.invalid? with
  | some reason => .error (.invalid reason)
  | none => .ok config

/-- The config of the nearest config file, or the defaults when there is none. -/
def load (tree : FileTree) (start : Path) : Except LoadError Loaded :=
  match find? tree start with
  | some file => (loadFile tree file).map (⟨·, true⟩)
  | none => .ok ⟨default, false⟩

end CatalogAudit.Config
