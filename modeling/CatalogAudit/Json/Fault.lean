/-
  CatalogAudit.Json.Fault — why a JSON text cannot be read, and where.

  A reader works on what is left of the text. A failure keeps the number of bytes that
  were left when it arose, and the place in the text is worked out from that number at
  the end: the line, from 1, and the bytes of that line up to the place.
-/

import CatalogAudit.Text.Basic

namespace CatalogAudit.Json

open CatalogAudit.Text

inductive Fault where
  | unfinishedValue
  | unfinishedString
  | unfinishedList
  | unfinishedObject
  | expectedValue
  | expectedWord
  | expectedColon
  | expectedListSeparator
  | expectedObjectSeparator
  | keyNotString
  | trailingComma
  | trailingCharacters
  | invalidNumber
  | numberOutOfRange
  | invalidEscape
  | controlCharacter
  | loneSurrogate
  | unfinishedSurrogatePair
  | tooDeep
  /-- A value of another kind than the one asked for. -/
  | wrongType (found expected : String)
  | duplicateField (name : String)
  | missingField (name : String)
  | tooFewItems (found : Nat) (expected : String)
  deriving DecidableEq, Repr

def Fault.message : Fault → String
  | .unfinishedValue => "EOF while parsing a value"
  | .unfinishedString => "EOF while parsing a string"
  | .unfinishedList => "EOF while parsing a list"
  | .unfinishedObject => "EOF while parsing an object"
  | .expectedValue => "expected value"
  | .expectedWord => "expected ident"
  | .expectedColon => "expected `:`"
  | .expectedListSeparator => "expected `,` or `]`"
  | .expectedObjectSeparator => "expected `,` or `\x7d`"
  | .keyNotString => "key must be a string"
  | .trailingComma => "trailing comma"
  | .trailingCharacters => "trailing characters"
  | .invalidNumber => "invalid number"
  | .numberOutOfRange => "number out of range"
  | .invalidEscape => "invalid escape"
  | .controlCharacter => "control character (\\u0000-\\u001F) found while parsing a string"
  | .loneSurrogate => "lone leading surrogate in hex escape"
  | .unfinishedSurrogatePair => "unexpected end of hex escape"
  | .tooDeep => "recursion limit exceeded"
  | .wrongType found expected => "invalid type: " ++ found ++ ", expected " ++ expected
  | .duplicateField name => "duplicate field `" ++ name ++ "`"
  | .missingField name => "missing field `" ++ name ++ "`"
  | .tooFewItems found expected => "invalid length " ++ toString found ++ ", expected " ++ expected

structure Failure where
  fault : Fault
  /-- Bytes after the place of the failure. -/
  bytesLeft : Nat
  deriving DecidableEq, Repr

/-! ## Places -/

structure Place where
  line : Nat
  column : Nat
  deriving DecidableEq, Repr

/-- The place after that many bytes, starting from `at`. A place may lie inside a character. -/
def Place.advance (p : Place) : Nat → List Char → Place
  | 0, _ => p
  | _ + 1, [] => p
  | bytes + 1, c :: cs =>
    if bytes + 1 < c.utf8Size then ⟨p.line, p.column + (bytes + 1)⟩
    else if c = '\n' then Place.advance ⟨p.line + 1, 0⟩ bytes cs
    else Place.advance ⟨p.line, p.column + c.utf8Size⟩ (bytes + 1 - c.utf8Size) cs
  termination_by structural _ cs => cs

/-- A fault with its place. -/
structure SyntaxError where
  fault : Fault
  place : Place
  deriving DecidableEq, Repr

def Failure.inText (f : Failure) (text : List Char) : SyntaxError :=
  ⟨f.fault, Place.advance ⟨1, 0⟩ (byteCount text - f.bytesLeft) text⟩

def SyntaxError.message (e : SyntaxError) : String :=
  e.fault.message ++ " at line " ++ toString e.place.line ++ " column " ++ toString e.place.column

/-! ## Reading steps -/

/-- A step takes the text that is left and gives a value with what is left after it. -/
abbrev Step (α : Type) := List Char → Except Failure (α × List Char)

/-- A failure found right after what has been read. -/
def failAfter {α : Type} (fault : Fault) (left : List Char) : Except Failure α :=
  .error ⟨fault, byteCount left⟩

/-- A failure of the next byte, which counts as read unless the text has ended. -/
def failOn {α : Type} (fault : Fault) (left : List Char) : Except Failure α :=
  .error ⟨fault, byteCount left - 1⟩

end CatalogAudit.Json
