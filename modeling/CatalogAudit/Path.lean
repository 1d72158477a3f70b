/-
  CatalogAudit.Path — file paths.

  A path keeps its text as it was spelled. What it means is the list of its components:
  empty segments and `.` segments say nothing, except that a path may start at the root
  (`/`) or with the working directory (`.`). Paths are compared by their components, and
  the path below a root is what is left of the components when those of the root are
  taken away.
-/

import CatalogAudit.Text.Basic

namespace CatalogAudit

open Text

structure Path where
  text : String
  deriving DecidableEq, Repr, Inhabited

namespace Path

/-! ## Components -/

/-- Where a path starts: at the root, with a leading `.`, or with its first segment. -/
inductive Start where
  | root
  | here
  | plain
  deriving DecidableEq, Repr

/-- The start of a path and the segments after it, as they are spelled. -/
def spelled (p : Path) : Start × List (List Char) :=
  match p.text.toList with
  | '/' :: cs => (.root, splitOn '/' cs)
  | cs =>
    match splitOn '/' cs with
    | ['.'] :: segments => (.here, segments)
    | segments => (.plain, segments)

/-- A segment that says nothing. -/
def isIdle (segment : List Char) : Bool := segment == [] || segment == ['.']

inductive Component where
  | root
  | here
  | up
  | name (s : String)
  deriving DecidableEq, Repr

def Component.ofSegment (segment : List Char) : Component :=
  if segment = ['.', '.'] then .up else .name (String.ofList segment)

def Start.components : Start → List Component
  | .root => [.root]
  | .here => [.here]
  | .plain => []

def components (p : Path) : List Component :=
  let (start, segments) := p.spelled
  start.components ++ (segments.filter (!isIdle ·)).map Component.ofSegment

def Component.text : Component → String
  | .root => "/"
  | .here => "."
  | .up => ".."
  | .name s => s

def isAbsolute (p : Path) : Bool := p.text.toList.head? == some '/'

/-! ## Joining -/

/-- `q` seen from `p`. An absolute `q` stands for itself; an empty one closes `p` with a slash. -/
def join (p q : Path) : Path :=
  if q.isAbsolute || p.text = "" then q
  else if p.text.toList.getLast? = some '/' then ⟨p.text ++ q.text⟩
  else ⟨p.text ++ "/" ++ q.text⟩

def child (p : Path) (name : String) : Path := p.join ⟨name⟩

/-! ## Parents -/

/-- The segments up to the last one that says something. -/
def trimIdle (segments : List (List Char)) : List (List Char) :=
  (segments.reverse.dropWhile isIdle).reverse

def ofSpelled (start : Start) (segments : List (List Char)) : Path :=
  let body := Text.join ['/'] segments
  match start with
  | .root => ⟨String.ofList ('/' :: body)⟩
  | .here => ⟨String.ofList (if segments.isEmpty then ['.'] else '.' :: '/' :: body)⟩
  | .plain => ⟨String.ofList body⟩

/-- The path without its last component; none when there is no component to leave out. -/
def parent? (p : Path) : Option Path :=
  let (start, segments) := p.spelled
  match trimIdle segments with
  | [] => if start = .here then some ⟨""⟩ else none
  | body => some (ofSpelled start (trimIdle body.dropLast))

/-- At most `steps` parents of a path, nearest first. -/
def parentsWithin : (steps : Nat) → Path → List Path
  | 0, _ => []
  | steps + 1, p =>
    match p.parent? with
    | some parent => parent :: parentsWithin steps parent
    | none => []

/-- The parents of a path, nearest first. There is a parent for each character at most, and one
more for the empty path. -/
def parents (p : Path) : List Path := parentsWithin (p.text.length + 1) p

/-! ## The last component -/

def fileName? (p : Path) : Option String :=
  match p.components.getLast? with
  | some (.name s) => some s
  | _ => none

/-- A file name cut at its last dot. A dot at the start does not count. -/
def splitName {α : Type} [DecidableEq α] (dot : α) (name : List α) : List α × Option (List α) :=
  let ending := name.reverse.takeWhile (· != dot)
  match name.reverse.drop ending.length with
  | _ :: c :: cs => ((c :: cs).reverse, some ending.reverse)
  | _ => (name, none)

def extension? (p : Path) : Option String :=
  p.fileName?.bind fun name => (splitName '.' name.toList).2.map String.ofList

def stem? (p : Path) : Option String :=
  p.fileName?.map fun name => String.ofList (splitName '.' name.toList).1

/-! ## Order -/

def Component.rank : Component → Nat
  | .root => 0
  | .here => 1
  | .up => 2
  | .name _ => 3

/-- Root, working directory, parent, names; names by code points. -/
def Component.le : Component → Component → Bool
  | .name s, .name t => !(t < s)
  | c, d => c.rank ≤ d.rank

def componentsLe : List Component → List Component → Bool
  | [], _ => true
  | _ :: _, [] => false
  | c :: cs, d :: ds => if c = d then componentsLe cs ds else c.le d

/-- Component by component, so that what is below a directory comes right after it. -/
def le (p q : Path) : Bool := componentsLe p.components q.components

/-! ## Paths below a root -/

/-- What is left of `cs` when `start` is taken from its front. -/
def stripComponents : (start cs : List Component) → Option (List Component)
  | [], cs => some cs
  | _ :: _, [] => none
  | s :: start, c :: cs => if s = c then stripComponents start cs else none

/-- The components below `root`, joined by slashes; all of them when the path is not below it. -/
def relativeTo (p root : Path) : String :=
  let rest := (stripComponents root.components p.components).getD p.components
  joined "/" (rest.map Component.text)

/-- The path without a leading `.`, and then without segments at its ends that say nothing. -/
def withoutHere (p : Path) : Path :=
  match p.spelled with
  | (.here, segments) => ofSpelled .plain (trimIdle (segments.dropWhile isIdle))
  | _ => p

end Path

end CatalogAudit
