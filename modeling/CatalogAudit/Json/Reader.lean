/-
  CatalogAudit.Json.Reader — JSON values from text.

  A value stands inside at most `maxDepth` containers. Readers of lists and objects take
  the reader of their items, one container deeper, as an argument, so that the depth that
  is left is the only thing the recursion on values needs. A key that comes again keeps
  its first place and takes the last value.
-/

import CatalogAudit.Json.Lexeme
import CatalogAudit.Json.Numeral

namespace CatalogAudit.Json

open CatalogAudit.Text

/-- How deep containers may nest. -/
def maxDepth : Nat := 127

/-! ## Lists -/

/-- What stands before the next item, after blanks: whether there is one, and the text from
there on. -/
def nextItem (first : Bool) : Step Bool := fun cs =>
  match skipSpace cs with
  | [] => failOn .unfinishedList []
  | ']' :: rest => .ok (false, ']' :: rest)
  | c :: rest =>
    if first then .ok (true, c :: rest)
    else if c = ',' then
      match skipSpace rest with
      | [] => failOn .unfinishedValue []
      | ']' :: rest => failOn .trailingComma (']' :: rest)
      | rest => .ok (true, rest)
    else failOn .expectedListSeparator (c :: rest)

/-- The items up to the closing bracket, which is read too. An item is a character at least,
and uses up one of `bound`. -/
def readItemsWithin {α : Type} (item : Step α) :
    (bound : List Char) → (first : Bool) → Step (List α)
  | [], _, _ => failAfter .unfinishedList []
  | _ :: bound, first, cs => do
    let (more, cs) ← nextItem first cs
    if more then do
      let (v, cs) ← item cs
      let (vs, cs) ← readItemsWithin item bound false cs
      .ok (v :: vs, cs)
    else .ok ([], cs.tail)

def readItems {α : Type} (item : Step α) : Step (List α) := fun cs =>
  readItemsWithin item cs true cs

/-! ## Objects -/

/-- What stands before the next key, after blanks: whether there is one, and the text after
its opening quote, or the text from the closing bracket on. -/
def nextKey (first : Bool) : Step Bool := fun cs =>
  match skipSpace cs with
  | [] => failOn .unfinishedObject []
  | '\x7d' :: rest => .ok (false, '\x7d' :: rest)
  | c :: rest =>
    if first then
      if c = '"' then .ok (true, rest) else failOn .keyNotString (c :: rest)
    else if c = ',' then
      match skipSpace rest with
      | [] => failOn .unfinishedValue []
      | '"' :: rest => .ok (true, rest)
      | '\x7d' :: rest => failOn .trailingComma ('\x7d' :: rest)
      | rest => failOn .keyNotString rest
    else failOn .expectedObjectSeparator (c :: rest)

def readColon : Step Unit := fun cs =>
  match skipSpace cs with
  | [] => failOn .unfinishedObject []
  | c :: rest => if c = ':' then .ok ((), rest) else failOn .expectedColon (c :: rest)

/-- The members up to the closing bracket, which is read too. `member` reads what comes after
a key, and what has been read so far goes from one member to the next. A member uses up one
character of `bound`. -/
def readMembersWithin {σ : Type} (member : String → σ → Step σ) :
    (bound : List Char) → (first : Bool) → σ → Step σ
  | [], _, _, _ => failAfter .unfinishedObject []
  | _ :: bound, first, ms, cs => do
    let (more, cs) ← nextKey first cs
    if more then do
      let (key, cs) ← readString cs
      let (ms, cs) ← member key ms cs
      readMembersWithin member bound false ms cs
    else .ok (ms, cs.tail)

def readMember (item : Step Json) (key : String) (ms : Members) : Step Members := fun cs => do
  let ((), cs) ← readColon cs
  let (v, cs) ← item cs
  .ok (ms.put key v, cs)

def readMembers (item : Step Json) : Step Members := fun cs =>
  readMembersWithin (readMember item) cs true [] cs

/-! ## Values -/

/-- The word, number or string that starts with `c`, after `c` has been seen. -/
def readScalar (c : Char) (cs : List Char) : Except Failure (Json × List Char) :=
  if c = 'n' then (readWord ['u', 'l', 'l'] cs).map fun r => (.null, r.2)
  else if c = 't' then (readWord ['r', 'u', 'e'] cs).map fun r => (.bool true, r.2)
  else if c = 'f' then (readWord ['a', 'l', 's', 'e'] cs).map fun r => (.bool false, r.2)
  else if c = '-' then (readDigits true cs).map fun r => (.num r.1, r.2)
  else if c.isDigit then (readDigits false (c :: cs)).map fun r => (.num r.1, r.2)
  else if c = '"' then (readString cs).map fun r => (.str r.1, r.2)
  else failOn .expectedValue (c :: cs)

/-- A value with at most `depth` containers around any part of it, after blanks. -/
def readValue : (depth : Nat) → Step Json
  | 0, cs =>
    match skipSpace cs with
    | [] => failOn .unfinishedValue []
    | c :: rest =>
      if c = '[' || c = '\x7b' then failOn .tooDeep (c :: rest) else readScalar c rest
  | depth + 1, cs =>
    match skipSpace cs with
    | [] => failOn .unfinishedValue []
    | c :: rest =>
      if c = '[' then (readItems (readValue depth) rest).map fun r => (.arr r.1, r.2)
      else if c = '\x7b' then (readMembers (readValue depth) rest).map fun r => (.obj r.1, r.2)
      else readScalar c rest

/-- Only blanks may follow. -/
def readEnd (cs : List Char) : Except Failure Unit :=
  match skipSpace cs with
  | [] => .ok ()
  | rest => failOn .trailingCharacters rest

/-- The value of a whole text, with the place of the first fault when there is none. -/
def readWhole {α : Type} (value : Step α) (text : String) : Except SyntaxError α :=
  let read := do
    let (v, rest) ← value text.toList
    readEnd rest
    .ok v
  read.mapError (·.inText text.toList)

def ofText (text : String) : Except SyntaxError Json := readWhole (readValue maxDepth) text

end CatalogAudit.Json
