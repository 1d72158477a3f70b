/-
  CatalogAudit.Json.Lexeme — blanks, words and strings of a JSON text.

  A string ends at the first quote that no backslash escapes. Controls may not stand in
  it. A `\u` escape names a UTF-16 unit; a leading surrogate must be followed at once by
  an escaped trailing one, and the pair names one character.
-/

import CatalogAudit.Json.Fault

namespace CatalogAudit.Json

open CatalogAudit.Text

/-! ## Blanks and words -/

def isSpace (c : Char) : Bool := c == ' ' || c == '\n' || c == '\t' || c == '\r'

def skipSpace (cs : List Char) : List Char := cs.dropWhile isSpace

/-- Reads exactly `word`; the first other byte is the failure. -/
def readWord : (word : List Char) → Step Unit
  | [], cs => .ok ((), cs)
  | _ :: _, [] => failAfter .unfinishedValue []
  | w :: ws, c :: cs => if c = w then readWord ws cs else failOn .expectedWord (c :: cs)

/-! ## Escapes -/

def hexValue? (c : Char) : Option Nat :=
  if '0' ≤ c && c ≤ '9' then some (c.toNat - '0'.toNat)
  else if 'a' ≤ c && c ≤ 'f' then some (c.toNat - 'a'.toNat + 10)
  else if 'A' ≤ c && c ≤ 'F' then some (c.toNat - 'A'.toNat + 10)
  else none

/-- Four hexadecimal digits. Four bytes are read, whether they are digits or not. -/
def readUnit : Step Nat
  | a :: b :: c :: d :: cs =>
    match hexValue? a, hexValue? b, hexValue? c, hexValue? d with
    | some x, some y, some z, some w => .ok (((x * 16 + y) * 16 + z) * 16 + w, cs)
    | _, _, _, _ => .error ⟨.invalidEscape, byteCount (a :: b :: c :: d :: cs) - 4⟩
  | cs =>
    if byteCount cs < 4 then failAfter .unfinishedString []
    else .error ⟨.invalidEscape, byteCount cs - 4⟩

/-- Reads the character `c`, which has to stand next in a surrogate pair. -/
def readPairChar (c : Char) : Step Unit
  | [] => failAfter .unfinishedString []
  | d :: cs => if d = c then .ok ((), cs) else failOn .unfinishedSurrogatePair (d :: cs)

def isLeading (u : Nat) : Bool := 0xD800 ≤ u && u ≤ 0xDBFF

def isTrailing (u : Nat) : Bool := 0xDC00 ≤ u && u ≤ 0xDFFF

/-- The rest of a `\u` escape. -/
def readUnicodeEscape : Step Char := fun cs => do
  let (u, cs) ← readUnit cs
  if isTrailing u then failAfter .loneSurrogate cs
  else if isLeading u then do
    let ((), cs) ← readPairChar '\\' cs
    let ((), cs) ← readPairChar 'u' cs
    let (v, cs) ← readUnit cs
    if isTrailing v then .ok (Char.ofNat ((u - 0xD800) * 0x400 + (v - 0xDC00) + 0x10000), cs)
    else failAfter .loneSurrogate cs
  else .ok (Char.ofNat u, cs)

/-- The character that a letter after a backslash stands for. -/
def shortEscape? (c : Char) : Option Char :=
  match c with
  | '"' => some '"'
  | '\\' => some '\\'
  | '/' => some '/'
  | 'b' => some '\x08'
  | 'f' => some '\x0c'
  | 'n' => some '\n'
  | 'r' => some '\r'
  | 't' => some '\t'
  | _ => none

/-- What follows a backslash. -/
def readEscape : Step Char
  | [] => failAfter .unfinishedString []
  | c :: cs =>
    if c = 'u' then readUnicodeEscape cs
    else
      match shortEscape? c with
      | some d => .ok (d, cs)
      | none => failOn .invalidEscape (c :: cs)

/-! ## Strings -/

/-- The rest of a string after its opening quote. Every step reads a character and uses up one
of `bound`, which suffices for a text that is no longer. -/
def readCharsWithin : (bound : List Char) → Step (List Char)
  | [], _ => failAfter .unfinishedString []
  | _ :: _, [] => failAfter .unfinishedString []
  | _ :: bound, c :: cs =>
    if c = '"' then .ok ([], cs)
    else if c = '\\' then do
      let (d, cs) ← readEscape cs
      let (ds, cs) ← readCharsWithin bound cs
      .ok (d :: ds, cs)
    else if c.toNat < 0x20 then failAfter .controlCharacter cs
    else do
      let (ds, cs) ← readCharsWithin bound cs
      .ok (c :: ds, cs)

def readChars : Step (List Char) := fun cs => readCharsWithin cs cs

def readString : Step String := fun cs => do
  let (ds, cs) ← readChars cs
  .ok (String.ofList ds, cs)

end CatalogAudit.Json
