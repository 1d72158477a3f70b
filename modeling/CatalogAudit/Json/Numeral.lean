/-
  CatalogAudit.Json.Numeral — numbers of a JSON text.

  Without a fraction and an exponent a number is an integer, if it fits in 64 bits with
  or without a sign; minus zero is the double of that name. Any other number is a double:
  the leading digits that fit in 64 bits, rounded to a double, then multiplied or divided
  by a power of ten. Digits that do not fit count as zeros.
-/

import CatalogAudit.Json.Basic
import CatalogAudit.Json.Fault

namespace CatalogAudit.Json

open CatalogAudit.Text

/-! ## Digits -/

def splitDigits (cs : List Char) : List Char × List Char := cs.span Char.isDigit

def digitValue (c : Char) : Nat := c.toNat - '0'.toNat

/-- The largest unsigned number of 64 bits. -/
def wordMax : Nat := 0xFFFFFFFFFFFFFFFF

/-- Appends digits to `n` while the result fits in 64 bits, with how many did not fit. -/
def takeDigits (n : Nat) : List Char → Nat × Nat
  | [] => (n, 0)
  | d :: ds =>
    if n * 10 + digitValue d ≤ wordMax then takeDigits (n * 10 + digitValue d) ds
    else (n, ds.length + 1)

/-! ## Doubles -/

def minusZero : UInt64 := 0x8000000000000000

def signed (negative : Bool) (x : Float) : Number := .float (if negative then -x else x).toBits

/-- `10 ^ n` as a double, for `n ≤ 308`. -/
def powerOfTen (n : Nat) : Float := Float.ofScientific 1 false n

/-- `x` divided by `10 ^ n`, in steps of at most `10 ^ 308`; zero stays zero. -/
def scaleDown (x : Float) (n : Nat) : Float :=
  if n ≤ 308 then x / powerOfTen n
  else if x == 0 then x
  else scaleDown (x / powerOfTen 308) (n - 308)
  termination_by n

/-- `significand · 10 ^ exponent`, if it is finite. -/
def scale? (significand : Nat) (exponent : Int) : Option Float :=
  let x := Float.ofNat significand
  if exponent < 0 then some (scaleDown x exponent.natAbs)
  else if exponent ≤ 308 then
    let y := x * powerOfTen exponent.toNat
    if y.isInf then none else some y
  else if x == 0 then some x
  else none

def finish (negative : Bool) (significand : Nat) (exponent : Int) : Step Number := fun cs =>
  match scale? significand exponent with
  | some x => .ok (signed negative x, cs)
  | none => failAfter .numberOutOfRange cs

/-! ## Exponents -/

/-- The largest exponent that is worked out; a larger one gives zero or no number at all. -/
def exponentMax : Nat := 0x7FFFFFFF

/-- Reads exponent digits onto `n`; past the largest exponent it stops after the digit at fault. -/
def readExponentDigits (n : Nat) : List Char → Option Nat × List Char
  | [] => (some n, [])
  | d :: ds =>
    if d.isDigit then
      if n * 10 + digitValue d ≤ exponentMax then readExponentDigits (n * 10 + digitValue d) ds
      else (none, ds)
    else (some n, d :: ds)

def readExponentSign : List Char → Bool × List Char
  | '+' :: cs => (false, cs)
  | '-' :: cs => (true, cs)
  | cs => (false, cs)

/-- The part after `e`, added to `exponent`. -/
def readExponent (negative : Bool) (significand : Nat) (exponent : Int) : Step Number := fun cs =>
  let (down, cs) := readExponentSign cs
  match cs with
  | [] => failAfter .unfinishedValue []
  | d :: ds =>
    if !d.isDigit then failOn .invalidNumber (d :: ds)
    else
      match readExponentDigits (digitValue d) ds with
      | (some n, ds) =>
        finish negative significand (if down then exponent - n else exponent + n) ds
      | (none, ds) =>
        if significand != 0 && !down then failAfter .numberOutOfRange ds
        else .ok (signed negative 0, (splitDigits ds).2)

def isExponentMark (c : Char) : Bool := c == 'e' || c == 'E'

/-- The exponent, if there is one, or the end of the number. -/
def readTail (negative : Bool) (significand : Nat) (exponent : Int) : Step Number
  | c :: cs =>
    if isExponentMark c then readExponent negative significand exponent cs
    else finish negative significand exponent (c :: cs)
  | [] => finish negative significand exponent []

/-! ## Numbers -/

/-- The part after the point: at least one digit, then perhaps an exponent. -/
def readFraction (negative : Bool) (significand : Nat) (exponent : Int) : Step Number := fun cs =>
  let (ds, rest) := splitDigits cs
  if ds.isEmpty then failOn (if cs.isEmpty then .unfinishedValue else .invalidNumber) cs
  else
    let (n, ignored) := takeDigits significand ds
    readTail negative n (exponent - (ds.length - ignored : Nat)) rest

/-- An integer with its sign, if it fits. -/
def integer (negative : Bool) (n : Nat) : Number :=
  if !negative then .int n
  else if n = 0 then .float minusZero
  else if n ≤ 0x8000000000000000 then .int (-n)
  else signed true (Float.ofNat n)

/-- What follows the whole digits `ds`. -/
def readAfterWhole (negative : Bool) (ds : List Char) : Step Number := fun cs =>
  let (n, ignored) := takeDigits 0 ds
  match cs with
  | '.' :: rest => readFraction negative n ignored rest
  | _ =>
    if ignored = 0 && !(cs.head?.any isExponentMark) then .ok (integer negative n, cs)
    else readTail negative n ignored cs

/-- A number after its sign. A leading zero has no digit after it. -/
def readDigits (negative : Bool) : Step Number
  | [] => failAfter .unfinishedValue []
  | c :: cs =>
    if c = '0' then
      if cs.head?.any Char.isDigit then failOn .invalidNumber cs
      else readAfterWhole negative ['0'] cs
    else if c.isDigit then
      let (ds, rest) := splitDigits (c :: cs)
      readAfterWhole negative ds rest
    else failOn .invalidNumber (c :: cs)

end CatalogAudit.Json
