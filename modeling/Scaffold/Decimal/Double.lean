import Scaffold.Decimal.Shortest

/-!
# Doubles and their texts

  A double is a magnitude with a sign, or no number at all. Its text is
  written out in full, with the fewest digits that read back. A text is read
  as a decimal fraction with an optional exponent, or as one of the names of
  infinity and of what is no number, in any letter case.
-/

namespace Scaffold.Decimal

/-- A double. -/
inductive Double where
  | number (negative : Bool) (magnitude : Binary64)
  | notANumber
  deriving DecidableEq

namespace Double

/-- A whole number as a double. -/
def ofInt (i : Int) : Double := number (i < 0) (Binary64.ofDecimal i.natAbs 0)

/-- Plus or minus zero. -/
def isZero : Double → Bool
  | number _ m => m.isZero
  | notANumber => false

/-- The text of a double. -/
def text : Double → String
  | number negative m => (if negative then "-" else "") ++ m.text .plain
  | notANumber => "NaN"

/-- The double nearest to a number of these digits, the last of which has the weight
    `10 ^ exponent`. Powers of ten that no double reaches are not computed. -/
def ofDecimal (negative : Bool) (digits : List Nat) (exponent : Int) : Double :=
  let coefficient := ofDigits digits
  let weight : Int := exponent + digitCount coefficient
  number negative <|
    if coefficient = 0 || weight < -330 then .zero
    else if 310 < weight then .infinite
    else Binary64.ofDecimal coefficient exponent

/-- An exponent that a text consists of, or zero if there is no text. -/
def exponent? : List Char → Option Int
  | [] => some 0
  | c :: cs => if c = 'e' || c = 'E' then integer? cs else none

/-- The double that a text consists of. -/
def ofChars? (cs : List Char) : Option Double :=
  let (negative, cs) := signed cs
  match String.ofList (cs.map Char.toLower) with
  | "inf" | "infinity" => some (number negative .infinite)
  | "nan" => some notANumber
  | _ =>
    let (whole, rest) := spanDigits cs
    let (fraction, rest) := match rest with
      | '.' :: rest => spanDigits rest
      | _ => ([], rest)
    if whole.isEmpty && fraction.isEmpty then none
    else (exponent? rest).map fun e => ofDecimal negative (whole ++ fraction) (e - fraction.length)

end Double

end Scaffold.Decimal
