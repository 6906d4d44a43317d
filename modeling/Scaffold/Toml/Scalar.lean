import Scaffold.Calendar
import Scaffold.Json.Token
import Scaffold.Text.Blank
import Scaffold.Toml.Value

/-!
# Values of one word

  Booleans, numbers, dates and times are told apart by their spelling alone.
  Digits may be grouped by single underscores, and a number other than zero
  does not begin with one. Dates and times are kept as texts, in the form in
  which they are usually written.
-/

namespace Scaffold.Toml

open Decimal

/-! ## Digits -/

/-- The value of a digit in any base up to sixteen. -/
def digitIn? (base : Nat) (c : Char) : Option Nat :=
  (Json.hexDigit? c).bind fun d => if d < base then some d else none

/-- Digits in groups that are set apart by single underscores. -/
def groups? (base : Nat) (cs : List Char) : Option (List Nat) := do
  let groups ← (Text.splitAt '_' cs).mapM fun g => g.mapM (digitIn? base)
  if groups.any List.isEmpty then none else some groups.flatten

/-- The number of digits in a base. -/
def ofDigitsIn (base : Nat) (digits : List Nat) : Nat := digits.foldl (fun n d => n * base + d) 0

/-- Digits of which the first is no zero, or the zero alone. -/
def leading? (cs : List Char) : Option (List Nat) :=
  match groups? 10 cs with
  | some (0 :: _ :: _) => none
  | digits => digits

/-! ## Numbers -/

/-- A whole number. Only in base ten it may have a sign. -/
def integer? (cs : List Char) : Option Int :=
  match cs with
  | '0' :: 'x' :: cs => (groups? 16 cs).map fun ds => (ofDigitsIn 16 ds : Int)
  | '0' :: 'o' :: cs => (groups? 8 cs).map fun ds => (ofDigitsIn 8 ds : Int)
  | '0' :: 'b' :: cs => (groups? 2 cs).map fun ds => (ofDigitsIn 2 ds : Int)
  | cs =>
    let (negative, cs) := signed cs
    (leading? cs).map fun ds => withSign negative (ofDigits ds)

/-- An exponent, which may be absent. -/
def exponent? : Option (List Char) → Option Int
  | none => some 0
  | some cs =>
    let (negative, cs) := signed cs
    (groups? 10 cs).map fun ds => withSign negative (ofDigits ds)

/-- The digits behind a point, which may be absent. -/
def fraction? : Option (List Char) → Option (List Nat)
  | none => some []
  | some cs => groups? 10 cs

/-- A double: a name, or digits with a point or an exponent. What is larger than every double is
    none. -/
def double? (cs : List Char) : Option Double :=
  let (negative, cs) := signed cs
  if cs = ['i', 'n', 'f'] then some (.number negative .infinite)
  else if cs = ['n', 'a', 'n'] then some .notANumber
  else
    let (mantissa, exponent) := Text.cut (fun c => c = 'e' || c = 'E') cs
    let (whole, fraction) := Text.cut (· = '.') mantissa
    if exponent.isNone && fraction.isNone then none
    else do
      let whole ← leading? whole
      let fraction ← fraction? fraction
      let exponent ← exponent? exponent
      match Double.ofDecimal negative (whole ++ fraction) (exponent - fraction.length) with
      | .number _ .infinite => none
      | d => some d

/-! ## Dates and times -/

/-- A number of exactly so many digits in front, and what follows it. -/
def places? (width : Nat) (cs : List Char) : Option (Nat × List Char) :=
  let digits := cs.take width
  if digits.length = width && digits.all Char.isDigit then
    some (ofDigits (digits.map digitValue), cs.drop width)
  else none

/-- What follows a character in front. -/
def behind? (c : Char) : List Char → Option (List Char)
  | [] => none
  | d :: cs => if d = c then some cs else none

/-- A date in front, as a text, and what follows it. -/
def date? (cs : List Char) : Option (String × List Char) := do
  let (year, cs) ← places? 4 cs
  let (month, cs) ← places? 2 (← behind? '-' cs)
  let (day, cs) ← places? 2 (← behind? '-' cs)
  if 1 ≤ month && month ≤ 12 && 1 ≤ day && day ≤ Calendar.daysIn year month then
    return (s!"{Moment.padded 4 year}-{Moment.padded 2 month}-{Moment.padded 2 day}", cs)
  else none

/-- The text of a part of a second: nine places count, and no zeros at the end. -/
def fractionText (digits : List Char) : String :=
  let kept := ((digits.take 9).reverse.dropWhile (· = '0')).reverse
  "." ++ (if kept.isEmpty then "0" else String.ofList kept)

/-- The part of a second, which may be absent. -/
def secondFraction? (cs : List Char) : Option (String × List Char) :=
  match cs with
  | '.' :: cs =>
    let digits := cs.takeWhile Char.isDigit
    if digits.isEmpty then none else some (fractionText digits, cs.dropWhile Char.isDigit)
  | cs => some ("", cs)

/-- Seconds, which may be absent. -/
def seconds? (cs : List Char) : Option (String × List Char) :=
  match cs with
  | ':' :: cs => do
    let (second, cs) ← places? 2 cs
    let (fraction, cs) ← secondFraction? cs
    if second ≤ 60 then return (s!":{Moment.padded 2 second}{fraction}", cs) else none
  | cs => some ("", cs)

/-- A time in front, as a text, and what follows it. -/
def time? (cs : List Char) : Option (String × List Char) := do
  let (hour, cs) ← places? 2 cs
  let (minute, cs) ← places? 2 (← behind? ':' cs)
  let (seconds, cs) ← seconds? cs
  if hour < 24 && minute < 60 then
    return (s!"{Moment.padded 2 hour}:{Moment.padded 2 minute}{seconds}", cs)
  else none

/-- The offset that a text consists of; a time without one is local. -/
def offset? (cs : List Char) : Option String :=
  match cs with
  | [] => some ""
  | ['Z'] | ['z'] => some "Z"
  | sign :: cs => do
    let (hours, cs) ← places? 2 cs
    let (minutes, cs) ← places? 2 (← behind? ':' cs)
    if !cs.isEmpty || 24 ≤ hours || 60 ≤ minutes || (sign != '+' && sign != '-') then none
    else
      let sign := if sign = '-' && (hours, minutes) != (0, 0) then "-" else "+"
      return s!"{sign}{Moment.padded 2 hours}:{Moment.padded 2 minutes}"

/-- A date, a time or both. -/
def moment? (cs : List Char) : Option String :=
  match date? cs with
  | none => match time? cs with
    | some (time, []) => some time
    | _ => none
  | some (date, []) => some date
  | some (date, c :: cs) => do
    if c != 'T' && c != 't' && c != ' ' then none
    else
      let (time, cs) ← time? cs
      let offset ← offset? cs
      return s!"{date}T{time}{offset}"

/-! ## All together -/

/-- The value of a word. -/
def Value.ofWord? (cs : List Char) : Option Value :=
  if cs = ['t', 'r', 'u', 'e'] then some (.bool true)
  else if cs = ['f', 'a', 'l', 's', 'e'] then some (.bool false)
  else match integer? cs with
    | some i => some (.integer i)
    | none => match double? cs with
      | some d => some (.double d)
      | none => (moment? cs).map .moment

end Scaffold.Toml
