/-
  CatalogAudit.Catalog.Entries — the entries of a catalog.

  A catalog is an object. Objects inside it are containers, every other value is a leaf,
  arrays included. A path of keys leads from the root to an entry; a dotted key names the
  path of its segments. What the operations do to the leaves:
  - `delete?` takes away the entry at a path with all below it and leaves a container
    that becomes empty in its place;
  - `pruned` takes away the containers without a leaf.
-/

import CatalogAudit.Text.Basic
import CatalogAudit.Json.Basic

namespace CatalogAudit

/-! ## Dotted keys -/

/-- The path that a dotted key names. -/
def keySegments (key : String) : List String := Text.split '.' key

/-- A path as a dotted key. Nothing stands before the first segment that is not empty. -/
def dottedKey (path : List String) : String :=
  path.foldl (fun key segment => if key = "" then segment else key ++ "." ++ segment) ""

/-! ## Leaves -/

mutual

/-- The leaves at and below a value, with their paths, in order. -/
def Json.leaves : Json → List (List String × Json)
  | .obj ms => Members.leaves ms
  | v => [([], v)]
  termination_by structural v => v

def Members.leaves : Members → List (List String × Json)
  | [] => []
  | m :: ms => memberLeaves m ++ Members.leaves ms
  termination_by structural ms => ms

def memberLeaves : String × Json → List (List String × Json)
  | (key, v) => v.leaves.map fun leaf => (key :: leaf.1, leaf.2)
  termination_by structural m => m

end

namespace Members

/-- The dotted keys of the leaves, in order. -/
def leafKeys (ms : Members) : List String := ms.leaves.map fun leaf => dottedKey leaf.1

/-! ## Entries at a path -/

/-- Whether a path leads to an entry, through containers all the way. -/
def hasEntry : Members → List String → Bool
  | _, [] => false
  | ms, [key] => ms.has key
  | ms, key :: rest =>
    match ms.value? key with
    | some (.obj child) => hasEntry child rest
    | _ => false

/-- Takes away the entry at a path; none when there is no such entry. -/
def delete? : Members → List String → Option Members
  | _, [] => none
  | ms, [key] => if ms.has key then some (ms.without key) else none
  | ms, key :: rest =>
    match ms.value? key with
    | some (.obj child) => (delete? child rest).map fun child => ms.put key (.obj child)
    | _ => none

/-- Takes away the entries that dotted keys name, one by one: the keys that named an entry
when their turn came, and what is left. -/
def deleteEach : Members → (keys : List String) → List String × Members
  | ms, [] => ([], ms)
  | ms, key :: keys =>
    match ms.delete? (keySegments key) with
    | none => deleteEach ms keys
    | some ms =>
      let (deleted, ms) := deleteEach ms keys
      (key :: deleted, ms)

/-- Takes away top-level entries, one by one. -/
def deleteTopEach : Members → (keys : List String) → List String × Members
  | ms, [] => ([], ms)
  | ms, key :: keys =>
    if ms.has key then
      let (deleted, ms) := deleteTopEach (ms.without key) keys
      (key :: deleted, ms)
    else deleteTopEach ms keys

end Members

/-! ## Empty containers -/

mutual

/-- A value without its empty containers, and without those that only hold such. -/
def Json.pruned : Json → Json
  | .obj ms => .obj (Members.pruned ms)
  | v => v
  termination_by structural v => v

def Members.pruned : Members → Members
  | [] => []
  | m :: ms =>
    match prunedMember m with
    | (_, .obj []) => Members.pruned ms
    | m => m :: Members.pruned ms
  termination_by structural ms => ms

def prunedMember : String × Json → String × Json
  | (key, v) => (key, v.pruned)
  termination_by structural m => m

end

end CatalogAudit
