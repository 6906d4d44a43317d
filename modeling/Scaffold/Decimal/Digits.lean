/-!
# Numbers in digits

  Powers of the two bases that doubles and their texts are about, and numbers at
  the front of a text: an optional sign, and a run of decimal digits, first
  digit first.
-/

namespace Scaffold.Decimal

/-- A power of two. -/
def twoTo (n : Nat) : Nat := Nat.pow 2 n

/-- A power of ten. -/
def tenTo (n : Nat) : Nat := Nat.pow 10 n

/-- Digits as a number, the most significant one first. -/
def ofDigits (digits : List Nat) : Nat := digits.foldl (fun n d => n * 10 + d) 0

/-- Whether there is a minus sign in front, and what follows the sign. -/
def signed : List Char → Bool × List Char
  | '-' :: cs => (true, cs)
  | '+' :: cs => (false, cs)
  | cs => (false, cs)

/-- A number with its sign. -/
def withSign (negative : Bool) (n : Nat) : Int := if negative then -n else n

/-- The value of a decimal digit. -/
def digitValue (c : Char) : Nat := c.toNat - '0'.toNat

/-- The digits in front, and what follows them. -/
def spanDigits (cs : List Char) : List Nat × List Char :=
  ((cs.takeWhile Char.isDigit).map digitValue, cs.dropWhile Char.isDigit)

/-- The whole number that a text consists of. -/
def integer? (cs : List Char) : Option Int :=
  let (negative, cs) := signed cs
  match spanDigits cs with
  | ([], _) => none
  | (digits, []) => some (withSign negative (ofDigits digits))
  | (_, _ :: _) => none

/-- The whole numbers that 64 bits hold with a sign. -/
def fitsWord (i : Int) : Bool := -(twoTo 63 : Int) ≤ i && i < twoTo 63

end Scaffold.Decimal
