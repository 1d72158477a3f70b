/-
  CatalogAudit.Invocation — the command line.

  The first argument names the command; its options follow in any order. The value of an
  option is the next argument, or stands after `=` in the same one. An option whose value
  is a separate argument takes effect only when the next option or the end comes, so a
  fault of that value gives way to an unknown argument in between.
-/

import CatalogAudit.Command

namespace CatalogAudit

inductive Invocation where
  /-- No command is given. -/
  | nothing
  | init
  | check (options : Overrides)
  | clean (options : Overrides) (mode : Mode)
  deriving DecidableEq, Repr

inductive UsageError where
  | unknownArgument
  | unknownCommand
  /-- An option without its value, or an empty path. -/
  | badValue
  | repeatedOption
  /-- A value for an option that takes none. -/
  | unwantedValue
  | helpAsked
  | versionAsked
  deriving DecidableEq, Repr

/-- Asking for help is no mistake. -/
def UsageError.exitCode : UsageError → Nat
  | .helpAsked => 0
  | .versionAsked => 0
  | _ => 2

def UsageError.message : UsageError → String
  | .unknownArgument => "unexpected argument"
  | .unknownCommand => "unrecognized subcommand"
  | .badValue => "a value is required for the option"
  | .repeatedOption => "the option cannot be used multiple times"
  | .unwantedValue => "unexpected value for an option that takes none"
  | .helpAsked => "help"
  | .versionAsked => "version"

namespace Invocation

/-! ## Options -/

/-- Options with a value. -/
inductive ValueOption where
  | defaultLocale
  | sourceRoot
  | messagesRoot
  | locale
  deriving DecidableEq, Repr

inductive Switch where
  | verbose
  | remove
  | help
  | version
  deriving DecidableEq, Repr

inductive Opt where
  | valued (o : ValueOption)
  | switch (s : Switch)
  deriving DecidableEq, Repr

/-- The options that a command knows, by their long and short names. -/
structure OptionTable where
  long : Assoc String Opt
  short : Assoc Char Switch

def helpTable : OptionTable := ⟨[("help", .switch .help)], [('h', .help)]⟩

def topTable : OptionTable :=
  ⟨helpTable.long ++ [("version", .switch .version)], helpTable.short ++ [('V', .version)]⟩

def checkTable : OptionTable where
  long := helpTable.long ++ [
    ("default-locale", .valued .defaultLocale),
    ("source-root", .valued .sourceRoot),
    ("messages-root", .valued .messagesRoot),
    ("locale", .valued .locale),
    ("verbose", .switch .verbose)]
  short := helpTable.short ++ [('v', .verbose)]

def cleanTable : OptionTable :=
  { checkTable with long := checkTable.long ++ [("remove", .switch .remove)] }

/-- What has been given so far, with an option that waits for its value or for its turn. -/
structure Given where
  options : Overrides
  remove : Bool
  pending : Option (ValueOption × Option String)
  deriving DecidableEq, Repr

def Given.start : Given := ⟨.none, false, none⟩

/-- Gives a path option its value, once. -/
def onePath (current : Option Path) (value : String) : Except UsageError (Option Path) :=
  if current.isSome then .error .repeatedOption
  else if value = "" then .error .badValue
  else .ok (some ⟨value⟩)

def Given.setValue (g : Given) (o : ValueOption) (value : String) : Except UsageError Given :=
  let options := g.options
  match o with
  | .defaultLocale =>
    if options.defaultLocale.isSome then .error .repeatedOption
    else .ok { g with options := { options with defaultLocale := some value } }
  | .sourceRoot => do
    let path ← onePath options.sourceRoot value
    .ok { g with options := { options with sourceRoot := path } }
  | .messagesRoot => do
    let path ← onePath options.messagesRoot value
    .ok { g with options := { options with messagesRoot := path } }
  | .locale => .ok { g with options := { options with locales := options.locales ++ [value] } }

/-- The pending option takes effect. -/
def Given.settle (g : Given) : Except UsageError Given :=
  match g.pending with
  | none => .ok g
  | some (_, none) => .error .badValue
  | some (o, some value) => ({ g with pending := none } : Given).setValue o value

def Given.flip (g : Given) (s : Switch) : Except UsageError Given := do
  let g ← g.settle
  match s with
  | .help => .error .helpAsked
  | .version => .error .versionAsked
  | .verbose =>
    if g.options.verbose then .error .repeatedOption
    else .ok { g with options := { g.options with verbose := true } }
  | .remove => if g.remove then .error .repeatedOption else .ok { g with remove := true }

/-- A long option with the value attached to it, if any. -/
def Given.takeLong (g : Given) (table : OptionTable) (name : String) (attached : Option String) :
    Except UsageError Given :=
  match table.long.value? name, attached with
  | none, _ => .error .unknownArgument
  | some (.switch _), some _ => .error .unwantedValue
  | some (.switch s), none => g.flip s
  | some (.valued o), some value => do (← g.settle).setValue o value
  | some (.valued o), none => do .ok { ← g.settle with pending := some (o, none) }

/-- Short options, several in one argument. -/
def Given.takeShorts (g : Given) (table : OptionTable) : List Char → Except UsageError Given
  | [] => .ok g
  | c :: cs =>
    match table.short.value? c with
    | none => .error .unknownArgument
    | some s => do (← g.flip s).takeShorts table cs

/-! ## Arguments -/

/-- What an argument looks like. -/
inductive Look where
  | escape
  | long (name : String) (attached : Option String)
  | shorts (letters : List Char)
  | word
  deriving DecidableEq, Repr

/-- The text before the first `=` and the text after it. -/
def splitAttached (cs : List Char) : Look :=
  match cs.span (· != '=') with
  | (name, _ :: value) => .long (String.ofList name) (some (String.ofList value))
  | (name, []) => .long (String.ofList name) none

def look (arg : String) : Look :=
  match arg.toList with
  | ['-', '-'] => .escape
  | '-' :: '-' :: cs => splitAttached cs
  | '-' :: c :: cs => .shorts (c :: cs)
  | _ => .word

/-- A word is the value of the option that waits for one; no command takes other words. -/
def Given.takeWord (g : Given) (word : String) : Except UsageError Given :=
  match g.pending with
  | some (o, none) => .ok { g with pending := some (o, some word) }
  | _ => .error .unknownArgument

/-- The options of a command. Nothing but words may come after `--`, and they are not known. -/
def Given.takeAll (g : Given) (table : OptionTable) : List String → Except UsageError Given
  | [] => g.settle
  | arg :: args =>
    match look arg with
    | .escape => if args.isEmpty then g.settle else .error .unknownArgument
    | .long name attached => do (← g.takeLong table name attached).takeAll table args
    | .shorts letters => do (← g.takeShorts table letters).takeAll table args
    | .word => do (← g.takeWord arg).takeAll table args

/-! ## Commands -/

def commandNames : List String := ["check", "clean", "init", "help"]

/-- `help` may name one command to be explained. -/
def askHelp : List String → UsageError
  | [] => .helpAsked
  | [name] => if commandNames.contains name then .helpAsked else .unknownCommand
  | _ => .unknownCommand

/-- An argument where a command was expected, after `--`. -/
def misplaced (arg : String) : UsageError :=
  if commandNames.contains arg then .unknownArgument else .unknownCommand

def ofArgs : List String → Except UsageError Invocation
  | [] => .ok .nothing
  | "check" :: args => do
    let g ← Given.start.takeAll checkTable args
    .ok (.check g.options)
  | "clean" :: args => do
    let g ← Given.start.takeAll cleanTable args
    .ok (.clean g.options (if g.remove then .remove else .trial))
  | "init" :: args => do
    let _ ← Given.start.takeAll helpTable args
    .ok .init
  | "help" :: args => .error (askHelp args)
  | arg :: args =>
    match look arg with
    | .escape =>
      match args with
      | [] => .ok .nothing
      | next :: _ => .error (misplaced next)
    | .long name attached => do
      let _ ← Given.start.takeLong topTable name attached
      .error .unknownArgument
    | .shorts letters => do
      let _ ← Given.start.takeShorts topTable letters
      .error .unknownArgument
    | .word => .error .unknownCommand

/-! ## Running -/

def helpText : String := Command.lineText [
  "A fast CLI tool for checking and pruning next-intl translation catalogs",
  "",
  "Usage: transcheck [COMMAND]",
  "",
  "Commands:",
  "  check  Check that every used namespace and key exists in every locale",
  "  clean  Find translation entries no source file uses",
  "  init   Initialize a new .transcheckrc.json configuration file",
  "  help   Print this message or the help of the given subcommand(s)",
  "",
  "Options:",
  "  -h, --help     Print help",
  "  -V, --version  Print version"]

def run (tree : FileTree) : Invocation → RunResult
  | .nothing => ⟨.success, helpText, "", tree⟩
  | .init => Command.init tree
  | .check o => Command.check tree o
  | .clean o mode => Command.clean tree o mode

end Invocation

end CatalogAudit
