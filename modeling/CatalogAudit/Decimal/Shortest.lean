/-
  CatalogAudit.Decimal.Shortest — the fewest decimal digits that name a double.

  A finite positive double is `m · 2 ^ q`. The reals that round to it form an interval
  around it, ends included when `m` is even. Of the decimals `c · 10 ^ k` with the fewest
  digits that lie in the interval, the nearest to the double is taken, and of two equally
  near ones the one with the even last digit. Seventeen digits are always enough.
-/

namespace CatalogAudit.Decimal

/-! ## A double taken apart -/

/-- A positive double `m · 2 ^ q`, with the interval of reals that round to it. -/
structure Binary where
  m : Nat
  q : Int
  /-- The double below is only half as far away as the one above. -/
  narrowBelow : Bool
  deriving DecidableEq, Repr

/-- The sign bit, the eleven exponent bits and the fifty-two fraction bits. -/
def isNegative (bits : UInt64) : Bool := 0x8000000000000000 ≤ bits.toNat

def Binary.ofBits (bits : UInt64) : Binary :=
  let exponent : Nat := bits.toNat / 0x10000000000000 % 0x800
  let fraction : Nat := bits.toNat % 0x10000000000000
  if exponent = 0 then ⟨fraction, -1074, false⟩
  else ⟨0x10000000000000 + fraction, (exponent : Int) - 1075, fraction = 0 && exponent != 1⟩

/-! ## The interval, in quarters of the last binary place -/

def Binary.lower (b : Binary) : Nat := 4 * b.m - if b.narrowBelow then 1 else 2

def Binary.upper (b : Binary) : Nat := 4 * b.m + 2

/-- Compares `n · 2 ^ (q - 2)` with `c · 10 ^ k`, both made whole by a common factor. -/
def scaled (n : Nat) (q : Int) (c : Nat) (k : Int) : Nat × Nat :=
  (n * Nat.pow 2 (q - 2).toNat * Nat.pow 10 (-k).toNat,
    c * Nat.pow 10 k.toNat * Nat.pow 2 (2 - q).toNat)

/-- Whether the decimal `c · 10 ^ k` rounds to `b`. -/
def Binary.holds (b : Binary) (c : Nat) (k : Int) : Bool :=
  let (lo, x) := scaled b.lower b.q c k
  let (hi, _) := scaled b.upper b.q c k
  if b.m % 2 = 0 then lo ≤ x && x ≤ hi else lo < x && x < hi

/-! ## Digits -/

/-- The exponent of the leading decimal digit. Scaled by `10 ^ 324` every double is at least 1. -/
def Binary.leadingExponent (b : Binary) : Int :=
  let whole := b.m * Nat.pow 10 324 * Nat.pow 2 b.q.toNat / Nat.pow 2 (-b.q).toNat
  ((Nat.toDigits 10 whole).length : Int) - 325

/-- The nearest decimal `c · 10 ^ k` that rounds to `b`, for this `k`. -/
def Binary.nearest? (b : Binary) (k : Int) : Option Nat :=
  let (num, den) := scaled (4 * b.m) b.q 1 k
  let below := num / den
  let above := below + 1
  match b.holds below k, b.holds above k with
  | false, false => none
  | true, false => some below
  | false, true => some above
  | true, true =>
    let twice := 2 * (num % den)
    if twice < den || (twice = den && below % 2 = 0) then some below else some above

/-- Tries one digit, two digits and so on, as long as `tries` lasts. -/
def Binary.search (b : Binary) : Nat → Int → Nat × Int
  | 0, k => (b.m, k)
  | tries + 1, k =>
    match b.nearest? k with
    | some c => (c, k)
    | none => b.search tries (k - 1)

/-- Decimal digits without trailing zeros, and the exponent of the first one. -/
structure Digits where
  digits : List Char
  exponent : Int
  deriving DecidableEq, Repr

def shortest (b : Binary) : Digits :=
  if b.m = 0 then ⟨['0'], 0⟩
  else
    let (c, k) := b.search 17 b.leadingExponent
    let written := Nat.toDigits 10 c
    ⟨(written.reverse.dropWhile (· == '0')).reverse, k + written.length - 1⟩

end CatalogAudit.Decimal
