/-
  CatalogAudit.FileTree — files and directories as a value.

  A tree says what stands at each location below the root directory; a location is the
  list of names on the way to it. A path is followed segment by segment, and every
  location that it leaves has to be a directory. Reading leaves the tree as it is; a
  write changes the one location that its path leads to (`node?_set_of_ne`).

  A tree leaves out what a disk may have besides: links, so that each location has one way
  to it and each file one location; permissions and the end of free space, so that only the
  kinds of the nodes and the spelling of a path stand in the way of reading and writing;
  and names that are no text, as a location is made of texts.
-/

import CatalogAudit.Assoc
import CatalogAudit.Path

namespace CatalogAudit

inductive FileError where
  | notFound
  | exists
  | notDirectory
  | isDirectory
  | nameTooLong
  | invalidName
  | notText
  deriving DecidableEq, Repr

def FileError.message : FileError → String
  | .notFound => "No such file or directory (os error 2)"
  | .exists => "File exists (os error 17)"
  | .notDirectory => "Not a directory (os error 20)"
  | .isDirectory => "Is a directory (os error 21)"
  | .nameTooLong => "File name too long (os error 36)"
  | .invalidName => "file name contained an unexpected NUL byte"
  | .notText => "stream did not contain valid UTF-8"

inductive Node where
  | file (content : ByteArray)
  | directory
  /-- Reads as empty and forgets what is written. -/
  | device

/-- Whether two nodes are the same, byte for byte. -/
def Node.same : Node → Node → Bool
  | .file a, .file b => a.data == b.data
  | .directory, .directory => true
  | .device, .device => true
  | _, _ => false

abbrev Location := List String

structure FileTree where
  /-- Where relative paths start. -/
  workingDirectory : Location
  nodes : Assoc Location Node

namespace FileTree

/-! ## Looking -/

/-- What stands at a location. The root directory is always there. -/
def node? (t : FileTree) (loc : Location) : Option Node :=
  if loc = [] then some .directory else t.nodes.value? loc

/-- One segment further. -/
def step (loc : Location) (segment : String) : Location :=
  if segment = "" || segment = "." then loc
  else if segment = ".." then loc.dropLast
  else loc ++ [segment]

/-- The bytes that a file name may have at most, and those of a whole path. -/
def nameMax : Nat := 255

def pathMax : Nat := 4095

/-- Goes on from `loc`, segment by segment; what is left behind has to be a directory. -/
def follow (t : FileTree) :
    (loc : Location) → (segments : List String) → Except FileError Location
  | loc, [] => .ok loc
  | loc, segment :: rest =>
    match t.node? loc with
    | some .directory =>
      if nameMax < segment.utf8ByteSize then .error .nameTooLong
      else t.follow (step loc segment) rest
    | some _ => .error .notDirectory
    | none => .error .notFound

def start (t : FileTree) (p : Path) : Location := if p.isAbsolute then [] else t.workingDirectory

/-- What is wrong with a path as it is spelled. -/
def misspelling? (p : Path) : Option FileError :=
  if p.text.toList.contains '\x00' then some .invalidName
  else if p.text = "" then some .notFound
  else if pathMax < p.text.utf8ByteSize then some .nameTooLong
  else none

/-- The location that a path leads to; perhaps nothing stands there. -/
def locate (t : FileTree) (p : Path) : Except FileError Location :=
  match misspelling? p with
  | some e => .error e
  | none => t.follow (t.start p) (Text.split '/' p.text)

def look (t : FileTree) (p : Path) : Except FileError (Location × Node) := do
  let loc ← t.locate p
  match t.node? loc with
  | some node => .ok (loc, node)
  | none => .error .notFound

def has (t : FileTree) (p : Path) : Bool := (t.look p).isOk

def hasDirectory (t : FileTree) (p : Path) : Bool :=
  match t.look p with
  | .ok (_, .directory) => true
  | _ => false

def hasFile (t : FileTree) (p : Path) : Bool :=
  match t.look p with
  | .ok (_, .file _) => true
  | _ => false

/-! ## Reading -/

def read (t : FileTree) (p : Path) : Except FileError ByteArray := do
  match ← t.look p with
  | (_, .file content) => .ok content
  | (_, .directory) => .error .isDirectory
  | (_, .device) => .ok .empty

/-- The content of a file as a text. -/
def textOf (content : ByteArray) : Except FileError String :=
  match String.fromUTF8? content with
  | some text => .ok text
  | none => .error .notText

def readText (t : FileTree) (p : Path) : Except FileError String := t.read p >>= textOf

/-- The location of a directory. -/
def locateDirectory (t : FileTree) (p : Path) : Except FileError Location := do
  match ← t.look p with
  | (loc, .directory) => .ok loc
  | _ => .error .notDirectory

/-- What stands right in a directory, by name. -/
def children (t : FileTree) (loc : Location) : List (String × Node) :=
  t.nodes.filterMap fun (l, node) =>
    match l.getLast? with
    | some name => if l.dropLast = loc then some (name, node) else none
    | none => none

/-- The most names that a location in the tree has. -/
def depth (t : FileTree) : Nat := (t.nodes.map (·.1.length)).foldr max 0

/-- The names on the way from one location to another below it. -/
def below? : (loc l : Location) → Option (List String)
  | [], l => some l
  | _ :: _, [] => none
  | a :: loc, b :: l => if a = b then below? loc l else none

/-! ## Writing -/

def set (t : FileTree) (loc : Location) (node : Node) : FileTree :=
  { t with nodes := t.nodes.put loc node }

/-- The location that a path gives to something new, and whether the path closes with a slash. -/
def locateNew (t : FileTree) (p : Path) : Except FileError (Location × Bool) :=
  match misspelling? p with
  | some e => .error e
  | none => do
    let segments := Text.split '/' p.text
    let named := (segments.reverse.dropWhile (· = "")).reverse
    let loc ← t.follow (t.start p) named
    .ok (loc, named.length < segments.length)

/-- Writes a file. It may be new, but its directory has to be there. -/
def write (t : FileTree) (p : Path) (content : ByteArray) : Except FileError FileTree := do
  let (loc, closed) ← t.locateNew p
  if closed then .error .isDirectory
  else
    match t.node? loc with
    | some .directory => .error .isDirectory
    | some .device => .ok t
    | _ => .ok (t.set loc (.file content))

def writeText (t : FileTree) (p : Path) (text : String) : Except FileError FileTree :=
  t.write p text.toUTF8

def makeDirectory (t : FileTree) (p : Path) : Except FileError FileTree := do
  let (loc, _) ← t.locateNew p
  match t.node? loc with
  | some _ => .error .exists
  | none => .ok (t.set loc .directory)

/-- A directory that is there already is as good as a new one. -/
def ensureDirectory (t : FileTree) (p : Path) : FileTree × Option FileError :=
  match t.makeDirectory p with
  | .ok t => (t, none)
  | .error e => (t, if t.hasDirectory p then none else some e)

/-- Makes a directory and those above it that are missing; `steps` bounds the way up. Those
that could be made stay when the others cannot. -/
def makeDirectoriesWithin (t : FileTree) : (steps : Nat) → Path → FileTree × Option FileError
  | 0, _ => (t, some .notFound)
  | steps + 1, p =>
    if p.text = "" then (t, none)
    else
      match t.makeDirectory p with
      | .error .notFound =>
        match p.parent? with
        | none => (t, some .notFound)
        | some parent =>
          match t.makeDirectoriesWithin steps parent with
          | (t, none) => t.ensureDirectory p
          | failed => failed
      | _ => t.ensureDirectory p

def makeDirectories (t : FileTree) (p : Path) : FileTree × Option FileError :=
  t.makeDirectoriesWithin (p.text.length + 1) p

/-! ## What a write leaves alone -/

theorem node?_set_of_ne {t : FileTree} {loc l : Location} {node : Node} (h : l ≠ loc) :
    (t.set loc node).node? l = t.node? l := by
  simp [node?, set, Assoc.value?_put_of_ne h]

end FileTree

end CatalogAudit
