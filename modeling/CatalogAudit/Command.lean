/-
  CatalogAudit.Command — the commands as functions on files.

  A run takes the files as they are and gives an exit status, two texts for the streams
  and the files as they are then. `check` compares usage and catalogs, `clean` finds what
  is unused and removes it when asked to, `init` writes a config file with the defaults.
-/

import CatalogAudit.Project
import CatalogAudit.Report

namespace CatalogAudit

inductive ExitStatus where
  | success
  /-- The run found something. -/
  | failure
  /-- The run could not be completed. -/
  | error
  deriving DecidableEq, Repr

def ExitStatus.code : ExitStatus → Nat
  | .success => 0
  | .failure => 1
  | .error => 2

structure RunResult where
  status : ExitStatus
  out : String
  err : String
  tree : FileTree

namespace Command

open Log

def lineText (lines : List String) : String := String.join (lines.map (· ++ "\n"))

def fatal (message : String) : String := lineText ["Error: " ++ message]

/-! ## The scan -/

/-- How many directories the search for source files skipped, if any. -/
def skippedLog (p : Project) : Log :=
  if p.skipped.isEmpty then []
  else [warning (toString p.skipped.length ++ " path(s) skipped due to access errors" ++
    if p.verbose then "" else " (use -v for details)")]

/-- What the scan ran into, then what every file uses. -/
def scanLog (p : Project) : Log :=
  info ("Found " ++ Report.counted p.files.length "file" "files" ++ " to scan") ::
  skippedLog p ++
  p.failures.map (fun f => warning f.message) ++
  p.unread.map (fun f =>
    error ("Failed to process " ++ p.displayPath f.file ++ ": " ++ f.error.message)) ++
  p.usages.flatMap fun u => Report.fileUsage (p.displayPath u.file) u

/-- Ends a run: the log is written to its file, and the streams say so. -/
def finish (remarks : List String) (log : Log) (file : Path) (tree : FileTree)
    (status : ExitStatus) : RunResult :=
  let err := lineText remarks ++ log.errText
  match log.write tree file with
  | (tree, none) => ⟨status, log.outText ++ lineText ["Log saved to " ++ file.text], err, tree⟩
  | (tree, some e) => ⟨.error, log.outText, err ++ fatal e.message, tree⟩

/-- Runs on a project, if it could be read. -/
def runOn (tree : FileTree) (reading : Project.Reading)
    (run : List String → Project → RunResult) : RunResult :=
  match reading.outcome with
  | .ok p => run reading.remarks p
  | .error e => ⟨.error, "", lineText reading.remarks ++ fatal e.message, tree⟩

def statusOf (found : Bool) : ExitStatus := if found then .failure else .success

/-! ## The commands -/

def checkLog (p : Project) (r : Consistency) : Log :=
  [info "Checking translations..."] ++ scanLog p ++
    [info "", info "Checking catalog keys..."] ++ Report.usageSummary p.usage ++
    Report.consistency r

def checkProject (tree : FileTree) (remarks : List String) (p : Project) : RunResult :=
  let r := Consistency.ofCatalogs p.usage p.catalogs
  finish remarks (checkLog p r) (p.logDir.child "check.log") tree (statusOf r.hasIssues)

def check (tree : FileTree) (o : Overrides) : RunResult :=
  runOn tree (Project.read tree o) (checkProject tree)

def cleanLog (p : Project) (s : Surplus) (rs : List Removal) (mode : Mode) : Log :=
  [info "Checking for unused translation keys..."] ++ scanLog p ++ [info ""] ++
    Report.usageSummary p.usage ++ Report.removals s rs mode ++ Report.surplus s rs mode

def cleanLogName : Mode → String
  | .trial => "clean.log"
  | .remove => "remove.log"

/-- The status tells whether anything was unused when the run started. -/
def cleanProject (tree : FileTree) (mode : Mode) (remarks : List String) (p : Project) :
    RunResult :=
  let s := Surplus.ofCatalogs p.usage p.catalogs
  let r := s.prune mode tree p.catalogs
  finish remarks (cleanLog p s r.removals mode) (p.logDir.child (cleanLogName mode)) r.tree
    (statusOf s.isAny)

def clean (tree : FileTree) (o : Overrides) (mode : Mode) : RunResult :=
  runOn tree (Project.read tree o) (cleanProject tree mode)

def defaultConfigText : String := Config.default.toJson.text .pretty

def init (tree : FileTree) : RunResult :=
  let file := Path.child ⟨"."⟩ Config.fileName
  if tree.has file then
    ⟨.failure, "", fatal (Config.fileName ++ " already exists"), tree⟩
  else
    match tree.writeText file defaultConfigText with
    | .ok tree =>
      ⟨.success, lineText [Report.checkMark ++ " Created " ++ Config.fileName,
        "Set messagesRoot and locales for your project, then run `transcheck check`."], "", tree⟩
    | .error e =>
      ⟨.error, "", fatal ("Failed to write " ++ file.text ++ ": " ++ e.message), tree⟩

end Command

end CatalogAudit
