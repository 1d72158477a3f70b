/-
  CatalogAudit.Json.Writer — the text of a JSON value.

  A value is written on one line, or with every item and member on a line of its own,
  indented by two blanks for each container around it. Both layouts share one rule: each
  item comes after the line that the layout begins for it. An empty container has
  nothing between its brackets.

  A double is written with the fewest digits that read back, positionally from `0.00001`
  up to below `10 ^ 16` and always with a fraction, otherwise with an exponent.
-/

import CatalogAudit.Text.Basic
import CatalogAudit.Decimal.Shortest
import CatalogAudit.Json.Basic

namespace CatalogAudit.Json

open CatalogAudit.Text

/-! ## Numbers -/

def intText (n : Int) : List Char :=
  if n < 0 then '-' :: Nat.toDigits 10 n.natAbs else Nat.toDigits 10 n.natAbs

/-- The leading exponents that are written positionally. -/
def isPositional (exponent : Int) : Bool := -5 ≤ exponent && exponent ≤ 15

def digitsText (d : Decimal.Digits) : List Char :=
  let n := d.digits.length
  if isPositional d.exponent then
    if d.exponent < 0 then
      ['0', '.'] ++ List.replicate (-d.exponent - 1).toNat '0' ++ d.digits
    else
      let whole := d.exponent.toNat + 1
      if n ≤ whole then d.digits ++ List.replicate (whole - n) '0' ++ ['.', '0']
      else d.digits.take whole ++ '.' :: d.digits.drop whole
  else
    let mantissa := match d.digits with
      | [c] => [c]
      | c :: cs => c :: '.' :: cs
      | [] => []
    let sign := if d.exponent < 0 then [] else ['+']
    mantissa ++ 'e' :: sign ++ intText d.exponent

def floatText (bits : UInt64) : List Char :=
  let digits := digitsText (Decimal.shortest (Decimal.Binary.ofBits bits))
  if Decimal.isNegative bits then '-' :: digits else digits

def numberText : Number → List Char
  | .int n => intText n
  | .float bits => floatText bits

/-! ## Strings -/

/-- Quotes, backslashes and controls are escaped, all else is written as it is. -/
def escapeChar (c : Char) : List Char :=
  if c = '"' || c = '\\' then ['\\', c]
  else if c = '\n' then ['\\', 'n']
  else if c = '\r' then ['\\', 'r']
  else if c = '\t' then ['\\', 't']
  else if c = '\x08' then ['\\', 'b']
  else if c = '\x0c' then ['\\', 'f']
  else if c.toNat < 0x20 then
    ['\\', 'u', '0', '0', Nat.digitChar (c.toNat / 16), Nat.digitChar (c.toNat % 16)]
  else [c]

def stringText (s : String) : List Char := '"' :: s.toList.flatMap escapeChar ++ ['"']

/-! ## Values -/

inductive Layout where
  | compact
  | pretty
  deriving DecidableEq, Repr

/-- What comes before an item inside `depth` containers. -/
def Layout.line : Layout → Nat → List Char
  | .compact, _ => []
  | .pretty, depth => '\n' :: List.replicate (2 * depth) ' '

def Layout.colon : Layout → List Char
  | .compact => [':']
  | .pretty => [':', ' ']

/-- The items of a container at `depth`, between its brackets. -/
def bracketed (layout : Layout) (depth : Nat) (opening closing : Char)
    (items : List (List Char)) : List Char :=
  if items.isEmpty then [opening, closing]
  else
    opening :: join [','] (items.map (layout.line (depth + 1) ++ ·)) ++
      layout.line depth ++ [closing]

mutual

def written (layout : Layout) (depth : Nat) : Json → List Char
  | .null => ['n', 'u', 'l', 'l']
  | .bool true => ['t', 'r', 'u', 'e']
  | .bool false => ['f', 'a', 'l', 's', 'e']
  | .num n => numberText n
  | .str s => stringText s
  | .arr items => bracketed layout depth '[' ']' (writtenItems layout (depth + 1) items)
  | .obj ms => bracketed layout depth '{' '}' (writtenMembers layout (depth + 1) ms)
  termination_by structural v => v

def writtenItems (layout : Layout) (depth : Nat) : List Json → List (List Char)
  | [] => []
  | v :: vs => written layout depth v :: writtenItems layout depth vs
  termination_by structural vs => vs

def writtenMembers (layout : Layout) (depth : Nat) : List (String × Json) → List (List Char)
  | [] => []
  | m :: ms => writtenMember layout depth m :: writtenMembers layout depth ms
  termination_by structural ms => ms

def writtenMember (layout : Layout) (depth : Nat) : String × Json → List Char
  | (key, v) => stringText key ++ layout.colon ++ written layout depth v
  termination_by structural m => m

end

def text (layout : Layout) (v : Json) : String := String.ofList (written layout 0 v)

end CatalogAudit.Json
