/-
  CatalogAudit.Json.Typed — reading a JSON text as values of known kinds.

  Each reader says what it expects; another value is read to its end first, so that the
  fault names what was found. A record is an object with the fields of its shape, in any
  order, or a list with their values in the order of the shape. Members that the shape
  does not know are read over. A fault of a record as a whole is placed after its closing
  bracket, where that comes next.
-/

import CatalogAudit.Json.Skip
import CatalogAudit.Json.Writer
import CatalogAudit.Text.Printable

namespace CatalogAudit.Json

/-! ## Single values -/

/-- How a value of the wrong kind is called. -/
def found : Json → String
  | .null => "null"
  | .bool b => "boolean `" ++ (if b then "true" else "false") ++ "`"
  | .num (.int n) => "integer `" ++ String.ofList (intText n) ++ "`"
  | .num (.float bits) => "floating point `" ++ String.ofList (floatText bits) ++ "`"
  | .str s => "string " ++ Text.quoted s
  | .arr _ => "sequence"
  | .obj _ => "map"

/-- Something other than what was expected starts with `c`. -/
def failType {α : Type} (expected : String) (c : Char) (cs : List Char) :
    Except Failure (α × List Char) :=
  if c = '[' then failAfter (.wrongType (found (.arr [])) expected) (c :: cs)
  else if c = '\x7b' then failAfter (.wrongType (found (.obj [])) expected) (c :: cs)
  else
    match readScalar c cs with
    | .ok (v, rest) => failAfter (.wrongType (found v) expected) rest
    | .error e => .error e

/-- Reads a value by its first character, after blanks. -/
def byFirst {α : Type} (read : Char → List Char → Except Failure (α × List Char)) : Step α :=
  fun cs =>
    match skipSpace cs with
    | [] => failOn .unfinishedValue []
    | c :: rest => read c rest

def typedString : Step String :=
  byFirst fun c cs => if c = '"' then readString cs else failType "a string" c cs

def typedBool : Step Bool :=
  byFirst fun c cs =>
    if c = 't' then (readWord ['r', 'u', 'e'] cs).map fun r => (true, r.2)
    else if c = 'f' then (readWord ['a', 'l', 's', 'e'] cs).map fun r => (false, r.2)
    else failType "a boolean" c cs

def typedList {α : Type} (item : Step α) : Step (List α) :=
  byFirst fun c cs => if c = '[' then readItems item cs else failType "a sequence" c cs

/-- Values under any keys, listed by ascending key; of a repeated key the last one counts. -/
def typedMap {α : Type} (item : Step α) : Step (NameMap α) :=
  byFirst fun c cs =>
    if c = '\x7b' then
      readMembersWithin
        (fun key (ps : NameMap α) cs => do
          let ((), cs) ← readColon cs
          let (v, cs) ← item cs
          .ok (ps.put key v, cs))
        cs true ∅ cs
    else failType "a map" c cs

/-! ## Records -/

structure Field (σ : Type) where
  name : String
  /-- Other names under which it may be given. -/
  aliases : List String
  required : Bool
  /-- Reads the value of the field into a record. -/
  read : σ → Step σ

def Field.answersTo {σ : Type} (f : Field σ) (key : String) : Bool :=
  f.name = key || f.aliases.contains key

structure Shape (σ : Type) where
  title : String
  fields : List (Field σ)
  /-- The record with no field given. -/
  blank : σ

section
variable {σ : Type}

/-- What is left after the closing bracket, if that comes next. -/
def afterClosing (closing : Char) (cs : List Char) : List Char :=
  match skipSpace cs with
  | c :: rest => if c = closing then rest else c :: rest
  | [] => []

/-- What comes after a key: the names of the fields given so far, and the record so far. -/
def Shape.readMember (shape : Shape σ) (key : String) (state : List String × σ) :
    Step (List String × σ) := fun cs =>
  match shape.fields.find? (·.answersTo key) with
  | none => do
    let ((), cs) ← readColon cs
    let ((), cs) ← skipValue cs
    .ok (state, cs)
  | some f =>
    if f.name ∈ state.1 then failAfter (.duplicateField f.name) (afterClosing '\x7d' cs)
    else do
      let ((), cs) ← readColon cs
      let (r, cs) ← f.read state.2 cs
      .ok ((f.name :: state.1, r), cs)

/-- The required field that was not given. -/
def Shape.missing? (shape : Shape σ) (given : List String) : Option String :=
  (shape.fields.find? fun f => f.required && !given.contains f.name).map (·.name)

def Shape.readObject (shape : Shape σ) : Step σ := fun cs => do
  let ((given, r), cs) ← readMembersWithin shape.readMember cs true ([], shape.blank) cs
  match shape.missing? given with
  | some name => failAfter (.missingField name) cs
  | none => .ok (r, cs)

/-- Nothing but the closing bracket may follow the last field. -/
def closeList : Step Unit := fun cs =>
  match skipSpace cs with
  | [] => failOn .unfinishedList []
  | c :: rest =>
    if c = ']' then .ok ((), rest)
    else if c = ',' then
      match skipSpace rest with
      | ']' :: rest => failOn .trailingComma (']' :: rest)
      | rest => failOn .trailingCharacters rest
    else failOn .trailingCharacters (c :: rest)

def Shape.expected (shape : Shape σ) : String :=
  shape.title ++ " with " ++ toString shape.fields.length ++ " elements"

/-- The values of the remaining fields; `count` of them have been read. -/
def Shape.readValues (shape : Shape σ) : (fields : List (Field σ)) → (count : Nat) → σ → Step σ
  | [], _, r, cs => do
    let ((), cs) ← closeList cs
    .ok (r, cs)
  | f :: fields, count, r, cs => do
    let (more, cs) ← nextItem (count = 0) cs
    if more then do
      let (r, cs) ← f.read r cs
      shape.readValues fields (count + 1) r cs
    else if f.required then
      failAfter (.tooFewItems count shape.expected) (afterClosing ']' cs)
    else shape.readValues fields count r cs

def Shape.read (shape : Shape σ) : Step σ :=
  byFirst fun c cs =>
    if c = '\x7b' then shape.readObject cs
    else if c = '[' then shape.readValues shape.fields 0 shape.blank cs
    else failType shape.title c cs

end

end CatalogAudit.Json
