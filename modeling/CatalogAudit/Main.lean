/-
  CatalogAudit.Main — the program.

  Takes the files that a run may look at as a value, runs the command on it and writes
  back what has changed.
-/

import CatalogAudit.Invocation

namespace CatalogAudit.Program

/-- What stands at a location and below it on disk. Symbolic links are left out, and so is what
lies in directories of dependencies. -/
partial def snapshot (loc : Location) : IO (Assoc Location Node) := do
  let path := (← IO.currentDir) / ("/" ++ Text.joined "/" loc)
  let kind? : Option IO.FS.FileType ←
    try pure (some (← path.symlinkMetadata).type) catch _ => pure none
  match kind? with
  | some .dir =>
    let entries ← if loc.getLast?.any SourceFiles.dependencyDirectories.contains then pure #[]
      else try path.readDir catch _ => pure #[]
    let below ← entries.toList.mapM fun entry => snapshot (loc ++ [entry.fileName])
    return (loc, .directory) :: below.flatten
  | some .file => return [(loc, .file (← IO.FS.readBinFile path))]
  | some .other => return [(loc, .device)]
  | _ => return []

/-- The directories on the way to a location. -/
def ancestors (loc : Location) : Assoc Location Node :=
  (List.range loc.length).tail.map fun n => (loc.take n, .directory)

/-- The location of a path as it is spelled. -/
def locationOf (cwd : Location) (p : Path) : Location :=
  (Text.split '/' p.text).foldl FileTree.step (if p.isAbsolute then [] else cwd)

/-- Adds what stands at some paths on disk to a tree. -/
def load (tree : FileTree) (paths : List Path) : IO FileTree :=
  paths.foldlM (fun tree p => do
    let loc := locationOf tree.workingDirectory p
    let found ← snapshot loc
    let known := if found.isEmpty then [] else ancestors loc ++ found
    return { tree with nodes :=
      tree.nodes ++ known.filter fun entry => !tree.nodes.has entry.1 }) tree

/-- The files that a run with these options may look at. -/
def loadFor (tree : FileTree) (o : Overrides) : IO FileTree := do
  let chain := o.root :: o.root.parents
  let tree ← load tree
    (chain.flatMap fun dir => [dir.child Config.fileName, dir.child ".git"])
  load tree (Project.directories tree o)

def treeFor : Invocation → FileTree → IO FileTree
  | .nothing, tree => pure tree
  | .init, tree => load tree [Path.child ⟨"."⟩ Config.fileName]
  | .check o, tree => loadFor tree o
  | .clean o _, tree => loadFor tree o

/-- Writes to disk what is new in a tree. -/
def writeBack (before after : FileTree) : IO Unit :=
  after.nodes.forM fun (loc, node) => do
    let path := (← IO.currentDir) / ("/" ++ Text.joined "/" loc)
    if !(before.node? loc).any node.same then
      match node with
      | .file content => IO.FS.writeBinFile path content
      | .directory => IO.FS.createDirAll path
      | .device => pure ()

def runInvocation (invocation : Invocation) : IO UInt32 := do
  let cwd := (Text.split '/' (← IO.currentDir).toString).foldl FileTree.step []
  let start : FileTree := ⟨cwd, ancestors cwd ++ [(cwd, .directory)]⟩
  let tree ← treeFor invocation start
  let result := invocation.run tree
  IO.print result.out
  IO.eprint result.err
  writeBack tree result.tree
  return result.status.code.toUInt32

end CatalogAudit.Program

def main (args : List String) : IO UInt32 :=
  match CatalogAudit.Invocation.ofArgs args with
  | .ok invocation => CatalogAudit.Program.runInvocation invocation
  | .error .helpAsked => do
    IO.print CatalogAudit.Invocation.helpText
    return 0
  | .error .versionAsked => do
    IO.println "transcheck 0.1.0"
    return 0
  | .error e => do
    IO.eprintln ("error: " ++ e.message)
    return e.exitCode.toUInt32
