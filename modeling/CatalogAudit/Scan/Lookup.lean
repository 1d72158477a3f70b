/-
  CatalogAudit.Scan.Lookup — keys that are looked up through a bound identifier.

  - `t("key")` uses the key.
  - A template uses what stands before its first inserted value: the first segment, and
    the whole of it when there are more. The table of dynamic keys says what the
    inserted value may be.
  - `t(item.key)` uses the `key` field of an object literal given to `item` in the same
    file. Failing that, the keys of the hints that apply; nothing is guessed.
-/

import CatalogAudit.Scan.Source

namespace CatalogAudit.Scan

open Text Source

/-! ## Literals -/

def addLiteral (u : FileUsage) : (fields : List String) → FileUsage
  | [identifier, key] =>
    if isPlausibleKey key.toList then
      match u.bindings.namespaceOf? identifier with
      | some nspace => u.addKey (fullKey nspace key)
      | none => u
    else u
  | _ => u

def literalKeys : Finder := fun source =>
  eachMatch Shape.literalCall source.text fun u _ fields => addLiteral u fields

/-! ## Templates -/

/-- What opens an inserted value. -/
def insertion : List Char := ['$', '\x7b']

def isDynamic (template : List Char) : Bool := occurs insertion template

/-- The part before the first inserted value. -/
def staticPart (template : List Char) : List Char := trim isBlank (upTo insertion template)

/-- The keys that the table gives below a key. -/
def leavesBelow (rules : ScanRules) (key : String) : List String :=
  ((rules.dynamicKeys.value? key).getD []).map (fullKey key)

/-- A template that starts with an inserted value: only the namespace is known. -/
def addOpenTemplate (rules : ScanRules) (u : FileUsage) (nspace template : String) : FileUsage :=
  let expression := fullKey nspace template
  if rules.dynamicKeys.has nspace then
    (u.addKeys (leavesBelow rules nspace)).addNote .template expression
  else u.addNote .unresolved expression

/-- A template whose first segments are `first :: more`. -/
def addStaticTemplate (rules : ScanRules) (u : FileUsage) (nspace template first : String)
    (more : List String) : FileUsage :=
  let u := u.addKey (fullKey nspace first)
  let known := fullKey nspace (joined "." (first :: more))
  let u := if more.isEmpty then u else u.addKey known
  if isDynamic template.toList then
    (u.addKeys (leavesBelow rules nspace ++ leavesBelow rules known)).addNote .template
      (fullKey nspace template)
  else u

def addTemplate (rules : ScanRules) (u : FileUsage) : (fields : List String) → FileUsage
  | [identifier, template] =>
    match u.bindings.namespaceOf? identifier with
    | none => u
    | some nspace =>
      let fixed := staticPart template.toList
      if isPlausibleKey fixed then
        match ((splitOn '.' fixed).filter (!·.isEmpty)).map String.ofList with
        | first :: more => addStaticTemplate rules u nspace template first more
        | [] => u
      else if isDynamic template.toList && fixed.isEmpty then
        addOpenTemplate rules u nspace template
      else u
  | _ => u

def templateKeys (rules : ScanRules) : Finder := fun source =>
  eachMatch Shape.templateCall source.text fun u _ fields => addTemplate rules u fields

/-! ## Properties -/

/-- The `key` fields of the object literals in a text, under the names they are given to. -/
def tracedKeys (text : List Char) : Assoc String String :=
  (Shape.keyField.fieldsEverywhere text).filterMap fun
    | [name, key] => some (String.ofList name, String.ofList key)
    | _ => none

/-- The `key` field of the first object literal given to `name` that has one. -/
def tracedKey? (text : List Char) (name : String) : Option String := (tracedKeys text).value? name

/-- Adds a key that is looked up through a property, where `traced` are the keys of the file
and `hints` the hints that apply to it. -/
def addProperty (traced : Assoc String String) (hints : List Hint) (u : FileUsage) :
    (fields : List String) → FileUsage
  | [identifier, name, property] =>
    match u.bindings.namespaceOf? identifier with
    | none => u
    | some nspace =>
      let expression := fullKey nspace (name ++ "." ++ property)
      match traced.value? name with
      | some key => (u.addKey (fullKey nspace key)).addNote .resolved expression
      | none =>
        if hints.isEmpty then u.addNote .unresolved expression
        else
          (u.addKeys (hints.flatMap fun hint => hint.keys.map (fullKey nspace))).addNote
            .fallback expression
  | _ => u

def propertyKeys (rules : ScanRules) : Finder := fun source =>
  let traced := tracedKeys source.text
  let hints := rules.hints.filter (·.applies source.text)
  eachMatch Shape.propertyCall source.text fun u _ fields => addProperty traced hints u fields

end CatalogAudit.Scan
