/-!
# Calendar times

  Moments are whole seconds of the proleptic Gregorian calendar between a first
  and a last year. They are ordered like the numbers that `rank` gives them, a
  reading of year, month, day, hour, minute and second as one number with
  mixed places. `next?` carries a second through all the places, and the stamp
  of a moment writes them one behind the other.
-/

namespace Scaffold

namespace Calendar

/-- The first year. -/
def firstYear : Int := -262143

/-- The last year. -/
def lastYear : Int := 262142

/-- Years that divide by four, but of the full centuries only every fourth. -/
def isLeap (year : Int) : Bool := year % 4 == 0 && (year % 100 != 0 || year % 400 == 0)

/-- How many days a month has. -/
def daysIn (year : Int) (month : Nat) : Nat :=
  if month = 2 then (if isLeap year then 29 else 28)
  else if month = 4 ∨ month = 6 ∨ month = 9 ∨ month = 11 then 30
  else 31

theorem one_le_daysIn (year : Int) (month : Nat) : 1 ≤ daysIn year month := by
  unfold daysIn
  split
  · split <;> omega
  · split <;> omega

theorem daysIn_le (year : Int) (month : Nat) : daysIn year month ≤ 31 := by
  unfold daysIn
  split
  · split <;> omega
  · split <;> omega

end Calendar

open Calendar

/-- A whole second of the calendar. -/
structure Moment where
  year : Int
  month : Nat
  day : Nat
  hour : Nat
  minute : Nat
  second : Nat
  year_mem : firstYear ≤ year ∧ year ≤ lastYear
  month_mem : 1 ≤ month ∧ month ≤ 12
  day_mem : 1 ≤ day ∧ day ≤ daysIn year month
  hour_lt : hour < 24
  minute_lt : minute < 60
  second_lt : second < 60
  deriving DecidableEq

namespace Moment

/-- The moment with these places, if there is one. -/
def ofPlaces? (year : Int) (month day hour minute second : Nat) : Option Moment :=
  if h : (firstYear ≤ year ∧ year ≤ lastYear) ∧ (1 ≤ month ∧ month ≤ 12) ∧
      (1 ≤ day ∧ day ≤ daysIn year month) ∧ hour < 24 ∧ minute < 60 ∧ second < 60 then
    some ⟨year, month, day, hour, minute, second, h.1, h.2.1, h.2.2.1, h.2.2.2.1, h.2.2.2.2.1,
      h.2.2.2.2.2⟩
  else none

/-- The moment so many seconds after the beginning of 1970. Days are counted from a first of
    March, so that a leap day ends its year, its century and its four centuries. -/
def ofSeconds? (seconds : Int) : Option Moment :=
  let days := seconds / 86400 + 719468
  let second := (seconds % 86400).toNat
  let day := (days % 146097).toNat
  let year := (day - day / 1460 + day / 36524 - day / 146096) / 365
  let day := day - (365 * year + year / 4 - year / 100)
  let month := (5 * day + 2) / 153
  ofPlaces? (days / 146097 * 400 + year + (if month < 10 then 0 else 1))
    (if month < 10 then month + 3 else month - 9) (day - (153 * month + 2) / 5 + 1)
    (second / 3600) (second / 60 % 60) (second % 60)

/-! ## Order -/

/-- The places as one number; an earlier moment has the smaller one. -/
def rank (t : Moment) : Int :=
  ((((t.year * 12 + (t.month - 1)) * 31 + (t.day - 1)) * 24 + t.hour) * 60 + t.minute) * 60 +
    t.second

/-- `s` is earlier than `t`. -/
def earlier (s t : Moment) : Bool := s.rank < t.rank

/-! ## The next second -/

/-- Midnight of the first day of the next year, if there is one. -/
def nextYear? (t : Moment) : Option Moment := ofPlaces? (t.year + 1) 1 1 0 0 0

/-- Midnight of the first day of the next month. -/
def nextMonth? (t : Moment) : Option Moment :=
  if t.month < 12 then ofPlaces? t.year (t.month + 1) 1 0 0 0 else t.nextYear?

/-- Midnight of the next day. -/
def nextDay? (t : Moment) : Option Moment :=
  if t.day < daysIn t.year t.month then ofPlaces? t.year t.month (t.day + 1) 0 0 0
  else t.nextMonth?

/-- The start of the next hour. -/
def nextHour? (t : Moment) : Option Moment :=
  if t.hour < 23 then ofPlaces? t.year t.month t.day (t.hour + 1) 0 0 else t.nextDay?

/-- The start of the next minute. -/
def nextMinute? (t : Moment) : Option Moment :=
  if t.minute < 59 then ofPlaces? t.year t.month t.day t.hour (t.minute + 1) 0 else t.nextHour?

/-- The next second; the last moment of the calendar has none. -/
def next? (t : Moment) : Option Moment :=
  if t.second < 59 then ofPlaces? t.year t.month t.day t.hour t.minute (t.second + 1)
  else t.nextMinute?

/-! ## Text -/

/-- A number with zeros in front up to the given width. -/
def padded (width n : Nat) : String :=
  let digits := Nat.toDigits 10 n
  String.ofList (List.replicate (width - digits.length) '0' ++ digits)

/-- A year of four digits, with a sign where four digits without one do not hold it. -/
def yearText (year : Int) : String :=
  if 0 ≤ year ∧ year ≤ 9999 then padded 4 year.toNat
  else (if year < 0 then "-" else "+") ++ padded 4 year.natAbs

/-- The places one behind the other, the seconds as given. -/
def stampWith (t : Moment) (second : Nat) : String :=
  yearText t.year ++ padded 2 t.month ++ padded 2 t.day ++ padded 2 t.hour ++
    padded 2 t.minute ++ padded 2 second

/-- The stamp of a moment. -/
def stamp (t : Moment) : String := t.stampWith t.second

end Moment

/-! ## Readings -/

/-- What a clock shows: a moment and the nanoseconds since then. Inside a leap second, which
    belongs to the second before it, there are a thousand million nanoseconds or more. -/
structure Reading where
  moment : Moment
  nanoseconds : Nat
  deriving DecidableEq

/-- The stamp of a reading; a leap second is counted as the sixtieth. -/
def Reading.stamp (r : Reading) : String :=
  r.moment.stampWith (r.moment.second + r.nanoseconds / 1000000000)

end Scaffold
