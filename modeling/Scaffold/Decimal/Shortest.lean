import Scaffold.Decimal.Binary64

/-!
# The shortest decimal text of a double

  The numbers that round to a magnitude form an interval. The text of the
  magnitude has the fewest digits for which the interval holds a decimal
  number, and of those numbers it is the one nearest to the magnitude. On
  every grid of decimal numbers only the two neighbours of the magnitude have
  to be tried.
-/

namespace Scaffold.Decimal

/-- How many decimal digits a number has. -/
def digitCount (n : Nat) : Nat := (Nat.toDigits 10 n).length

/-- The weight of the leading decimal digit of `num / den`. -/
def leadingWeight (num den : Nat) : Int :=
  let k : Int := (digitCount num : Int) - digitCount den
  if den * tenTo k.toNat ≤ num * tenTo (-k).toNat then k else k - 1

/-- The interval of the numbers that round to a magnitude, in quarters of `2 ^ exponent`. -/
structure Rounding where
  low : Nat
  middle : Nat
  high : Nat
  /-- Both ends round to the magnitude too. -/
  closed : Bool
  exponent : Int

/-- The interval of a finite magnitude: below a power of two the numbers lie closer. -/
def Rounding.of (significand : Nat) (exponent : Int) : Rounding where
  low := 4 * significand - (if significand = twoTo 52 ∧ -1074 < exponent then 1 else 2)
  middle := 4 * significand
  high := 4 * significand + 2
  closed := significand % 2 == 0
  exponent := exponent - 2

/-- `c · 10 ^ weight` and one quarter unit, over a common denominator. -/
def Rounding.scale (r : Rounding) (weight : Int) : Nat × Nat :=
  (tenTo weight.toNat * twoTo (-r.exponent).toNat, twoTo r.exponent.toNat * tenTo (-weight).toNat)

/-- `c · 10 ^ weight` rounds to the magnitude. -/
def Rounding.holds (r : Rounding) (c : Nat) (weight : Int) : Bool :=
  let (ten, two) := r.scale weight
  let x := c * ten
  if r.closed then r.low * two ≤ x && x ≤ r.high * two else r.low * two < x && x < r.high * two

/-- The better of the two neighbours of the magnitude on the grid of `10 ^ weight`. -/
def Rounding.nearest? (r : Rounding) (weight : Int) : Option Nat :=
  let (ten, two) := r.scale weight
  let below := r.middle * two / ten
  let toBelow := r.middle * two - below * ten
  let toAbove := (below + 1) * ten - r.middle * two
  match r.holds below weight, r.holds (below + 1) weight with
  | true, true =>
    if toBelow < toAbove then some below
    else if toAbove < toBelow then some (below + 1)
    else if below % 2 = 0 then some below else some (below + 1)
  | true, false => some below
  | false, true => some (below + 1)
  | false, false => none

/-- The first grid with a hit, starting at `weight` and going to finer ones. -/
def Rounding.search (r : Rounding) (weight : Int) : Nat → Nat × Int
  | 0 => (0, 0)
  | fuel + 1 => match r.nearest? weight with
    | some c => (c, weight)
    | none => r.search (weight - 1) fuel

/-- Move the zeros at the end of a coefficient into the exponent. -/
def stripZeros (c : Nat) (e : Int) : Nat × Int :=
  if h : c ≠ 0 ∧ c % 10 = 0 then stripZeros (c / 10) (e + 1) else (c, e)
termination_by c
decreasing_by omega

/-- Coefficient and decimal exponent of the shortest text. Seventeen digits always suffice. -/
def shortest (significand : Nat) (exponent : Int) : Nat × Int :=
  let (n, d) := Binary64.quotient significand exponent
  let (c, e) := (Rounding.of significand exponent).search (leadingWeight n d) 18
  stripZeros c e

/-! ## Notation -/

/-- How a number is written out. -/
structure Style where
  /-- The weights of a leading digit for which no exponent is written. -/
  positional : Int → Bool
  /-- A whole number keeps a zero behind its point. -/
  wholePoint : Bool
  /-- The text of infinity. -/
  infinity : String

/-- Every number is written out in full. -/
def Style.plain : Style := ⟨fun _ => true, false, "inf"⟩

/-- Numbers from a hundred-thousandth up to ten to the sixteenth are written out in full. -/
def Style.scientific : Style := ⟨fun weight => -5 ≤ weight && weight < 16, true, "inf"⟩

/-- A text of that many zeros. -/
def zeros (n : Nat) : String := String.ofList (List.replicate n '0')

/-- `coefficient · 10 ^ exponent` without an exponent. -/
def positionalText (style : Style) (coefficient : Nat) (exponent : Int) : String :=
  let digits := Nat.toDigits 10 coefficient
  let behind := (-exponent).toNat
  if 0 ≤ exponent then
    String.ofList digits ++ zeros exponent.toNat ++ (if style.wholePoint then ".0" else "")
  else if behind < digits.length then
    String.ofList (digits.take (digits.length - behind)) ++ "." ++
      String.ofList (digits.drop (digits.length - behind))
  else "0." ++ zeros (behind - digits.length) ++ String.ofList digits

/-- `coefficient · 10 ^ exponent` with one digit before the point and an exponent. -/
def exponentText (coefficient : Nat) (exponent : Int) : String :=
  let digits := Nat.toDigits 10 coefficient
  let weight : Int := exponent + digits.length - 1
  let point := if 1 < digits.length then "." else ""
  let sign := if weight < 0 then "-" else "+"
  String.ofList (digits.take 1) ++ point ++ String.ofList (digits.drop 1) ++
    "e" ++ sign ++ toString weight.natAbs

/-- The text of a magnitude. -/
def Binary64.text (style : Style) : Binary64 → String
  | infinite => style.infinity
  | finite m e =>
    let (c, x) := if m = 0 then (0, 0) else shortest m e
    if c = 0 || style.positional (x + digitCount c - 1) then positionalText style c x
    else exponentText c x

end Scaffold.Decimal
