import Scaffold.Decimal.Digits

/-!
# Double precision in exact arithmetic

  The magnitudes that 64-bit floating point can hold, as a significand times a
  power of two, with infinity above the largest of them. Everything is done on
  natural numbers: a quotient is rounded to the nearest magnitude, and of two
  that are equally near to the one with the even significand.
-/

namespace Scaffold.Decimal

/-- A magnitude of double precision. -/
inductive Binary64 where
  /-- `significand · 2 ^ exponent`. -/
  | finite (significand : Nat) (exponent : Int)
  /-- More than every finite magnitude. -/
  | infinite
  deriving DecidableEq

namespace Binary64

/-- Zero. -/
def zero : Binary64 := finite 0 (-1074)

/-- The quotient to the nearest whole number, a half to the even one. -/
def divEven (num den : Nat) : Nat :=
  let q := num / den
  let twice := 2 * (num % den)
  if twice < den then q
  else if den < twice then q + 1
  else if q % 2 = 0 then q else q + 1

/-- `num / den` in units of `2 ^ exponent`, as a quotient of whole numbers. -/
def inUnits (num den : Nat) (exponent : Int) : Nat × Nat :=
  (num * twoTo (-exponent).toNat, den * twoTo exponent.toNat)

/-- The exponent that leaves 53 bits of `num / den`, but never less than the smallest. -/
def exponentFor (num den : Nat) : Int :=
  let low : Int := (num.log2 : Int) - den.log2 - 53
  let (n, d) := inUnits num den low
  max (-1074) (if n / d < twoTo 53 then low else low + 1)

/-- The magnitude nearest to `num / den`. -/
def round (num den : Nat) : Binary64 :=
  if num = 0 then zero
  else
    let e := exponentFor num den
    let (n, d) := inUnits num den e
    let q := divEven n d
    let (m, e) := if q = twoTo 53 then (twoTo 52, e + 1) else (q, e)
    if 971 < e then infinite else finite m e

/-- A finite magnitude as a quotient of whole numbers. -/
def quotient (significand : Nat) (exponent : Int) : Nat × Nat :=
  (significand * twoTo exponent.toNat, twoTo (-exponent).toNat)

/-- The magnitude nearest to `coefficient · 10 ^ exponent`. -/
def ofDecimal (coefficient : Nat) (exponent : Int) : Binary64 :=
  round (coefficient * tenTo exponent.toNat) (tenTo (-exponent).toNat)

/-- The product, rounded. -/
def mul : Binary64 → Binary64 → Binary64
  | finite m e, finite m' e' =>
    let (n, d) := quotient m e
    let (n', d') := quotient m' e'
    round (n * n') (d * d')
  | _, _ => infinite

/-- The quotient by a magnitude other than zero, rounded. -/
def div : Binary64 → Binary64 → Binary64
  | finite m e, finite m' e' =>
    let (n, d) := quotient m e
    let (n', d') := quotient m' e'
    round (n * d') (d * n')
  | finite _ _, infinite => zero
  | infinite, _ => infinite

/-- Nothing but zero has the significand zero. -/
def isZero : Binary64 → Bool
  | finite m _ => m == 0
  | infinite => false

end Binary64

end Scaffold.Decimal
