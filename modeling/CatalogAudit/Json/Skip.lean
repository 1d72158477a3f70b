/-
  CatalogAudit.Json.Skip — reading over a value that nobody asked for.

  The value must be well formed, but it may nest as deep as it likes, its numbers may be
  of any size and its surrogate escapes need not pair up.
-/

import CatalogAudit.Json.Reader

namespace CatalogAudit.Json

/-! ## Strings and numbers -/

def skipEscape : Step Unit
  | [] => failAfter .unfinishedString []
  | c :: cs =>
    if c = 'u' then (readUnit cs).map fun r => ((), r.2)
    else if (shortEscape? c).isSome then .ok ((), cs)
    else failOn .invalidEscape (c :: cs)

/-- The rest of a string after its opening quote, with a step for each character of `bound`. -/
def skipStringWithin : (bound : List Char) → Step Unit
  | [], _ => failAfter .unfinishedString []
  | _ :: _, [] => failAfter .unfinishedString []
  | _ :: bound, c :: cs =>
    if c = '"' then .ok ((), cs)
    else if c = '\\' then do
      let ((), cs) ← skipEscape cs
      skipStringWithin bound cs
    else if c.toNat < 0x20 then failAfter .controlCharacter (c :: cs)
    else skipStringWithin bound cs

def skipString : Step Unit := fun cs => skipStringWithin cs cs

def skipExponent : Step Unit := fun cs =>
  let (_, cs) := readExponentSign cs
  match cs with
  | [] => failAfter .invalidNumber []
  | c :: rest =>
    if c.isDigit then .ok ((), (splitDigits rest).2) else failOn .invalidNumber (c :: rest)

def skipFraction : Step Unit := fun cs =>
  let (ds, rest) := splitDigits cs
  if ds.isEmpty then failOn .invalidNumber cs
  else
    match rest with
    | c :: cs => if isExponentMark c then skipExponent cs else .ok ((), c :: cs)
    | [] => .ok ((), [])

def skipAfterWhole : Step Unit
  | [] => .ok ((), [])
  | c :: cs =>
    if c = '.' then skipFraction cs
    else if isExponentMark c then skipExponent cs
    else .ok ((), c :: cs)

/-- A number after its sign. -/
def skipNumber : Step Unit
  | [] => failAfter .invalidNumber []
  | c :: cs =>
    if c = '0' then
      if cs.head?.any Char.isDigit then failOn .invalidNumber cs else skipAfterWhole cs
    else if c.isDigit then skipAfterWhole (splitDigits cs).2
    else failOn .invalidNumber (c :: cs)

def skipScalar (c : Char) (cs : List Char) : Except Failure (Unit × List Char) :=
  if c = 'n' then readWord ['u', 'l', 'l'] cs
  else if c = 't' then readWord ['r', 'u', 'e'] cs
  else if c = 'f' then readWord ['a', 'l', 's', 'e'] cs
  else if c = '-' then skipNumber cs
  else if c.isDigit then skipNumber (c :: cs)
  else if c = '"' then skipString cs
  else failOn .expectedValue (c :: cs)

/-! ## Containers -/

inductive Bracket where
  | list
  | object
  deriving DecidableEq, Repr

def Bracket.closing : Bracket → Char
  | .list => ']'
  | .object => '\x7d'

def Bracket.unfinished : Bracket → Fault
  | .list => .unfinishedList
  | .object => .unfinishedObject

def Bracket.expectedSeparator : Bracket → Fault
  | .list => .expectedListSeparator
  | .object => .expectedObjectSeparator

/-- A key with its colon, where the bracket asks for one. -/
def skipKey : Bracket → Step Unit
  | .list, cs => .ok ((), cs)
  | .object, cs =>
    match skipSpace cs with
    | [] => failOn .unfinishedObject []
    | c :: rest =>
      if c = '"' then do
        let ((), rest) ← skipString rest
        readColon rest
      else failOn .keyNotString (c :: rest)

mutual

/-- A value inside the brackets that are open, innermost first, and all up to their ends. -/
def skipValueWithin : (steps : Nat) → (opened : List Bracket) → Step Unit
  | 0, _, _ => failAfter .unfinishedValue []
  | steps + 1, opened, cs =>
    match skipSpace cs with
    | [] => failOn .unfinishedValue []
    | c :: rest =>
      if c = '[' then skipItemsWithin steps false .list opened rest
      else if c = '\x7b' then skipItemsWithin steps false .object opened rest
      else do
        let ((), rest) ← skipScalar c rest
        match opened with
        | [] => .ok ((), rest)
        | bracket :: opened => skipItemsWithin steps true bracket opened rest

/-- What comes after the opening bracket, or after an item when `comma` allows one. -/
def skipItemsWithin :
    (steps : Nat) → (comma : Bool) → Bracket → (opened : List Bracket) → Step Unit
  | 0, _, _, _, _ => failAfter .unfinishedValue []
  | steps + 1, comma, bracket, opened, cs =>
    match skipSpace cs with
    | [] => failOn bracket.unfinished []
    | c :: rest =>
      if comma && c = ',' then do
        let ((), rest) ← skipKey bracket rest
        skipValueWithin steps (bracket :: opened) rest
      else if c = bracket.closing then
        match opened with
        | [] => .ok ((), rest)
        | outer :: opened => skipItemsWithin steps true outer opened rest
      else if comma then failOn bracket.expectedSeparator (c :: rest)
      else do
        let ((), rest) ← skipKey bracket (c :: rest)
        skipValueWithin steps (bracket :: opened) rest

end

/-- Two steps for each character are enough. -/
def skipValue : Step Unit := fun cs => skipValueWithin (2 * cs.length + 2) [] cs

end CatalogAudit.Json
