/-
  CatalogAudit.Project — all that a run reads of a project.

  The root directory is given or the working directory. The config comes from the nearest
  config file, and what is given on the command line goes before it. Its paths are taken
  from the root. Then the catalogs are loaded, and the source files listed and scanned; a
  catalog or source file that cannot be read is noted and the others are used. To tell what
  an input contributes a project may be read without it (`readWith`).
-/

import CatalogAudit.Catalog.Basic
import CatalogAudit.Config.File
import CatalogAudit.Scan.Pass
import CatalogAudit.SourceFiles

namespace CatalogAudit

/-- What may be given on the command line. -/
structure Overrides where
  defaultLocale : Option String
  sourceRoot : Option Path
  messagesRoot : Option Path
  locales : List String
  verbose : Bool
  deriving DecidableEq, Repr

def Overrides.none : Overrides := ⟨Option.none, Option.none, Option.none, [], false⟩

def Overrides.root (o : Overrides) : Path := o.sourceRoot.getD ⟨"."⟩

def Overrides.apply (o : Overrides) (c : Config) : Config :=
  { c with
    defaultLocale := o.defaultLocale.getD c.defaultLocale
    messagesRoot := (o.messagesRoot.map (·.text)).getD c.messagesRoot
    locales := if o.locales.isEmpty then c.locales else o.locales }

/-- A configured path seen from the root. Where the root is the working directory, and for an
absolute path, it stands as it is spelled. -/
def resolve (root : Path) (configured : String) : Path :=
  let p : Path := ⟨configured⟩
  if p.isAbsolute || root.components.all (· = .here) then p else root.join p.withoutHere

structure Project where
  config : Config
  root : Path
  sourceDir : Path
  messagesDir : Path
  logDir : Path
  locales : List String
  files : List Path
  skipped : List SourceFiles.Skipped
  usages : List FileUsage
  unread : List Scan.UnreadFile
  usage : Usage
  catalogs : List Catalog
  failures : List Catalog.LoadFailure
  verbose : Bool

inductive ProjectError where
  | config (error : Config.LoadError)
  | noLocale (dir : Path)
  | sourceRoot (error : SourceFiles.UnreadRoot)
  | noCatalog (dir : Path)
  deriving DecidableEq, Repr

/-- The cause is named again after the message that holds it. -/
def ProjectError.message : ProjectError → String
  | .config e => e.message
  | .noLocale dir => "No locales configured and no catalogs found in '" ++ dir.text ++ "'"
  | .sourceRoot e => "Failed to scan source files: " ++ e.message ++ ": " ++ e.error.message
  | .noCatalog dir => "No catalog could be loaded from '" ++ dir.text ++ "'"

namespace Project

def defaultsNote : String :=
  "Note: No " ++ Config.fileName ++ " found, using default configuration"

def selection (c : Config) : SourceFiles.Selection := ⟨c.includes, c.ignores, c.ignoreTestFiles⟩

/-- The configured locales, or all that have a catalog. -/
def localesOf (tree : FileTree) (c : Config) (messagesDir : Path) : List String :=
  if c.locales.isEmpty then Catalog.discover tree messagesDir c.defaultLocale else c.locales

/-- The project, or why it cannot be read, and the remarks that are made on the way. -/
structure Reading where
  remarks : List String
  outcome : Except ProjectError Project

/-- The source files as the settings select them. -/
def listing (tree : FileTree) (o : Overrides) (config : Config) :
    Except SourceFiles.UnreadRoot SourceFiles.Listing :=
  SourceFiles.list tree (resolve o.root config.sourceRoot) (selection config)

/-- The project with these settings and source files, if any catalog can be loaded. -/
def ofFiles (tree : FileTree) (o : Overrides) (config : Config) (listed : SourceFiles.Listing) :
    Except ProjectError Project :=
  let messagesDir := resolve o.root config.messagesRoot
  let locales := localesOf tree config messagesDir
  let store := Catalog.loadAll tree messagesDir locales
  if store.catalogs.isEmpty then .error (.noCatalog messagesDir)
  else
    let scanned := Scan.scanFiles config.scanRules tree listed.files
    .ok {
      config, messagesDir, locales
      root := o.root
      sourceDir := resolve o.root config.sourceRoot
      logDir := resolve o.root config.logDir
      files := listed.files
      skipped := listed.skipped
      usages := scanned.usages
      unread := scanned.errors
      usage := Usage.ofFiles scanned.usages
      catalogs := store.catalogs
      failures := store.failures
      verbose := o.verbose }

/-- What is remarked on while the sources are listed: faulty patterns, then what is skipped. -/
def listingRemarks (o : Overrides) (config : Config) (listed : SourceFiles.Listing) :
    List String :=
  if o.verbose then
    ((selection config).warnings ++ listed.skipped.map (·.message)).map ("warning: " ++ ·)
  else []

/-- The project with these settings, when `listed` are its source files. -/
def ofListing (tree : FileTree) (o : Overrides) (note : List String) (config : Config)
    (listed : Except SourceFiles.UnreadRoot SourceFiles.Listing) : Reading :=
  let messagesDir := resolve o.root config.messagesRoot
  if (localesOf tree config messagesDir).isEmpty then ⟨note, .error (.noLocale messagesDir)⟩
  else
    match listed with
    | .error e => ⟨note, .error (.sourceRoot e)⟩
    | .ok listed => ⟨note ++ listingRemarks o config listed, ofFiles tree o config listed⟩

/-- Reads a project whose settings are narrowed, and of whose source files some are kept. -/
def readWith (tree : FileTree) (o : Overrides) (narrow : Config → Config)
    (keep : SourceFiles.Listing → SourceFiles.Listing) : Reading :=
  match Config.load tree o.root with
  | .error e => ⟨[], .error (.config e)⟩
  | .ok loaded =>
    let note := if o.verbose && !loaded.fromFile then [defaultsNote] else []
    let config := o.apply loaded.config
    ofListing tree o note (narrow config) ((listing tree o config).map keep)

/-- Reads a project with all its inputs. -/
def read (tree : FileTree) (o : Overrides) : Reading := readWith tree o id id

/-- The directories that a run looks at beside those in which the config is searched. -/
def directories (tree : FileTree) (o : Overrides) : List Path :=
  match Config.load tree o.root with
  | .error _ => []
  | .ok loaded =>
    let config := o.apply loaded.config
    [config.sourceRoot, config.messagesRoot, config.logDir].map (resolve o.root)

/-- A path as it is shown: below the source directory. -/
def displayPath (p : Project) (file : Path) : String := file.relativeTo p.sourceDir

end Project

end CatalogAudit
