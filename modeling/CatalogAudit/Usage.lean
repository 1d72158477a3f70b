/-
  CatalogAudit.Usage — what source files use.

  The identifiers of a file are listed in the order in which they were first bound. Binding
  one again changes its namespace and keeps its place, so the first namespace is that of the
  identifier bound first. Namespaces are listed once each, in the order in which they were
  found; keys are full keys, namespace first, as often as they were found. A note says what
  became of a key that is not written out in the source. What all files use together are two
  sets, of namespaces and of keys.
-/

import CatalogAudit.Assoc
import CatalogAudit.NameSet
import CatalogAudit.Path

namespace CatalogAudit

/-! ## Bindings -/

structure Bindings where
  entries : Assoc String String
  nodup : entries.names.Nodup := by simp [Assoc.names]
  deriving DecidableEq, Repr

namespace Bindings

def empty : Bindings := ⟨[], by simp [Assoc.names]⟩

instance : EmptyCollection Bindings := ⟨empty⟩

def bind (b : Bindings) (identifier nspace : String) : Bindings :=
  ⟨b.entries.put identifier nspace, Assoc.nodup_names_put identifier nspace b.nodup⟩

def namespaceOf? (b : Bindings) (identifier : String) : Option String :=
  b.entries.value? identifier

def firstNamespace? (b : Bindings) : Option String := b.entries.head?.map (·.2)

def size (b : Bindings) : Nat := b.entries.length

def isEmpty (b : Bindings) : Bool := b.entries.isEmpty

end Bindings

/-! ## One file -/

/-- What became of a key that is not written out. -/
inductive NoteKind where
  /-- A template: the part before the inserted value is known. -/
  | template
  /-- A property whose value stands in the same file. -/
  | resolved
  /-- A property for which a configured hint names the keys. -/
  | fallback
  | unresolved
  deriving DecidableEq, Repr

def NoteKind.label : NoteKind → String
  | .template => "template"
  | .resolved => "resolved"
  | .fallback => "fallback"
  | .unresolved => "unresolved"

structure Note where
  kind : NoteKind
  /-- The key expression as it is written, after the namespace. -/
  expression : String
  deriving DecidableEq, Repr

structure FileUsage where
  file : Path
  bindings : Bindings
  namespaces : List String
  keys : List String
  notes : List Note
  deriving DecidableEq, Repr

namespace FileUsage

def empty (file : Path) : FileUsage := ⟨file, ∅, [], [], []⟩

def bind (u : FileUsage) (identifier nspace : String) : FileUsage :=
  { u with bindings := u.bindings.bind identifier nspace }

def addNamespace (u : FileUsage) (nspace : String) : FileUsage :=
  if nspace ∈ u.namespaces then u else { u with namespaces := u.namespaces ++ [nspace] }

def addKey (u : FileUsage) (key : String) : FileUsage := { u with keys := u.keys ++ [key] }

def addKeys (u : FileUsage) (keys : List String) : FileUsage := { u with keys := u.keys ++ keys }

def addNote (u : FileUsage) (kind : NoteKind) (expression : String) : FileUsage :=
  { u with notes := u.notes ++ [⟨kind, expression⟩] }

def isEmpty (u : FileUsage) : Bool :=
  u.bindings.isEmpty && u.keys.isEmpty && u.namespaces.isEmpty && u.notes.isEmpty

end FileUsage

/-! ## All files -/

structure Usage where
  namespaces : NameSet
  keys : NameSet
  deriving DecidableEq, Repr

namespace Usage

def empty : Usage := ⟨∅, ∅⟩

def addFile (u : Usage) (file : FileUsage) : Usage :=
  ⟨u.namespaces.insertAll file.namespaces, u.keys.insertAll file.keys⟩

def ofFiles (files : List FileUsage) : Usage := files.foldl addFile empty

theorem mem_namespaces_addFile {u : Usage} {file : FileUsage} {x : String} :
    x ∈ (u.addFile file).namespaces ↔ x ∈ u.namespaces ∨ x ∈ file.namespaces :=
  NameSet.mem_insertAll

theorem mem_keys_addFile {u : Usage} {file : FileUsage} {x : String} :
    x ∈ (u.addFile file).keys ↔ x ∈ u.keys ∨ x ∈ file.keys :=
  NameSet.mem_insertAll

end Usage

end CatalogAudit
