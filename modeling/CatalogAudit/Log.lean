/-
  CatalogAudit.Log — what a run reports.

  A log is a list of messages. Plain messages go to the standard output, warnings and
  errors to the standard error stream; a log file holds all of them, one a line, with
  their severity in front.
-/

import CatalogAudit.FileTree

namespace CatalogAudit

inductive Severity where
  | info
  | warning
  | error
  deriving DecidableEq, Repr

structure LogEntry where
  severity : Severity
  message : String
  deriving DecidableEq, Repr

abbrev Log := List LogEntry

namespace Log

def info (message : String) : LogEntry := ⟨.info, message⟩

def warning (message : String) : LogEntry := ⟨.warning, message⟩

def error (message : String) : LogEntry := ⟨.error, message⟩

def infos (messages : List String) : Log := messages.map info

end Log

/-- An entry as a line of the log file. -/
def LogEntry.line (e : LogEntry) : String :=
  match e.severity with
  | .info => e.message
  | .warning => "[WARN] " ++ e.message
  | .error => "[ERROR] " ++ e.message

namespace Log

def lines (log : Log) : List String := log.map LogEntry.line

/-! ## Streams -/

def outText (log : Log) : String :=
  String.join (log.filterMap fun e =>
    match e.severity with
    | .info => some (e.message ++ "\n")
    | _ => none)

def errText (log : Log) : String :=
  String.join (log.filterMap fun e =>
    match e.severity with
    | .info => none
    | .warning => some ("warning: " ++ e.message ++ "\n")
    | .error => some ("error: " ++ e.message ++ "\n"))

/-! ## The log file -/

def fileText (log : Log) : String := Text.joined "\n" log.lines ++ "\n"

inductive WriteError where
  | directory (dir : Path) (error : FileError)
  | file (file : Path) (error : FileError)
  deriving DecidableEq, Repr

def WriteError.message : WriteError → String
  | .directory path e => "Failed to create log directory: " ++ path.text ++ ": " ++ e.message
  | .file path e => "Failed to write log file: " ++ path.text ++ ": " ++ e.message

/-- Makes the directory of a file, unless the path names none. -/
def makeParent (tree : FileTree) (file : Path) : FileTree × Option WriteError :=
  match file.parent? with
  | none => (tree, none)
  | some dir =>
    if dir.text = "" then (tree, none)
    else
      let (tree, error?) := tree.makeDirectories dir
      (tree, error?.map (.directory dir))

/-- Writes the log to its file, and says why if that fails. The directories that were made
for it stay in either case. -/
def write (log : Log) (tree : FileTree) (file : Path) : FileTree × Option WriteError :=
  match makeParent tree file with
  | (tree, some e) => (tree, some e)
  | (tree, none) =>
    match tree.writeText file log.fileText with
    | .ok tree => (tree, none)
    | .error e => (tree, some (.file file e))

end Log

end CatalogAudit
