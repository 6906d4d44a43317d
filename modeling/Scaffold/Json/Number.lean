import Scaffold.Decimal.Shortest
import Scaffold.Json.Token

/-!
# The value of a JSON number

  A number without point and exponent is an integer if 64 bits hold it: the
  unsigned ones, or the signed ones behind a minus sign. Every other number is
  a double, and so is `-0`. Digits are collected while 64 bits hold them; the
  whole digits after that only count, those behind the point are left out. The
  collected number is then scaled by powers of ten in double precision, with
  one rounding for each step.
-/

namespace Scaffold.Json

open Decimal

/-- The value of a number. -/
inductive NumberValue where
  | integer (i : Int)
  | double (negative : Bool) (magnitude : Binary64)
  /-- More than double precision holds. -/
  | outOfRange
  deriving DecidableEq

/-- The numbers that 64 bits hold. -/
def wordLimit : Nat := twoTo 64

/-- Append digits to a number while 64 bits hold the result; also the digits left over. -/
def collect (n : Nat) : List Nat → Nat × List Nat
  | [] => (n, [])
  | d :: ds => if n * 10 + d < wordLimit then collect (n * 10 + d) ds else (n, d :: ds)

/-- The exponents that 32 bits hold. -/
def exponentLimit : Nat := twoTo 31

/-- A whole number kept within the signed 32-bit range. -/
def clampExponent (e : Int) : Int := max (-(exponentLimit : Int)) (min e (exponentLimit - 1))

/-- Divide by ten to the 308th until at most 308 further places are left. -/
def scaleDown (f : Binary64) (places : Nat) : Binary64 :=
  if h : places ≤ 308 then f.div (Binary64.ofDecimal 1 places)
  else if f.isZero then f
  else scaleDown (f.div (Binary64.ofDecimal 1 308)) (places - 308)
termination_by places
decreasing_by omega

/-- `significand · 10 ^ exponent` in steps of double precision. -/
def scaled (negative : Bool) (significand : Nat) (exponent : Int) : NumberValue :=
  let f := Binary64.ofDecimal significand 0
  if exponent < 0 then .double negative (scaleDown f exponent.natAbs)
  else if exponent ≤ 308 then
    match f.mul (Binary64.ofDecimal 1 exponent) with
    | .infinite => .outOfRange
    | g => .double negative g
  else if f.isZero then .double negative f
  else .outOfRange

/-- The value of a decimal fraction with an exponent. -/
def Numeral.scientific (n : Numeral) : NumberValue :=
  let (whole, counted) := collect 0 n.whole
  let (significand, dropped) := collect whole n.fraction
  let start : Int := (counted.length : Int) - (n.fraction.length - dropped.length)
  match n.exponent with
  | none => scaled n.negative significand start
  | some (down, digits) =>
    let e := digits.foldl (fun e d => e * 10 + d) 0
    if e < exponentLimit then
      scaled n.negative significand (clampExponent (if down then start - e else start + e))
    else if significand = 0 || down then .double n.negative .zero
    else .outOfRange

/-- The value of a number. -/
def Numeral.value (n : Numeral) : NumberValue :=
  let (m, rest) := collect 0 n.whole
  if n.fraction.isEmpty && n.exponent.isNone && rest.isEmpty then
    if !n.negative then .integer m
    else if m = 0 || twoTo 63 < m then .double true (Binary64.ofDecimal m 0)
    else .integer (-(m : Int))
  else n.scientific

/-- A double as messages show it: always with a point or an exponent. -/
def doubleText (negative : Bool) (magnitude : Binary64) : String :=
  (if negative then "-" else "") ++ magnitude.text .scientific

end Scaffold.Json
