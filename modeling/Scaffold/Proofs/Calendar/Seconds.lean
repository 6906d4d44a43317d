import Mathlib.Tactic.IntervalCases
import Scaffold.Proofs.Calendar.Order

/-!
# Counting seconds

  A moment has a place in a count of seconds that knows nothing of carries: the
  days of the years in front of its year, those of the months in front of its
  month, its own day, and then hours, minutes and seconds. The order of moments
  is the order of this count, and the next moment is the next one in it. The
  heart is that a year is as long as its months, for leap years and others, and
  that the leap days of the years in front of a year can be counted by division.
-/

namespace Scaffold

namespace Calendar

/-! ## Days -/

/-- How many days a year has. -/
def daysInYear (year : Int) : Nat := if isLeap year then 366 else 365

/-- The days of the years in front of a year, from the beginning of year 0. -/
def daysBeforeYear (year : Int) : Int :=
  365 * year + (year + 3) / 4 - (year + 99) / 100 + (year + 399) / 400

/-- The days of the months in front of a month. -/
def daysBeforeMonth (year : Int) (month : Nat) : Nat :=
  ((List.range (month - 1)).map fun m => daysIn year (m + 1)).sum

theorem isLeap_iff (year : Int) :
    isLeap year = true ↔ year % 4 = 0 ∧ (year % 100 ≠ 0 ∨ year % 400 = 0) := by
  simp [isLeap]

theorem daysInYear_mem (year : Int) : 365 ≤ daysInYear year ∧ daysInYear year ≤ 366 := by
  rw [daysInYear]
  split <;> decide

theorem daysBeforeYear_succ (year : Int) :
    daysBeforeYear (year + 1) = daysBeforeYear year + daysInYear year := by
  have hleap := isLeap_iff year
  -- each count goes up behind a year that its number divides
  have hfour : (year + 1 + 3) / 4 = (year + 3) / 4 + if year % 4 = 0 then 1 else 0 := by
    split <;> omega
  have hhundred : (year + 1 + 99) / 100 = (year + 99) / 100 + if year % 100 = 0 then 1 else 0 := by
    split <;> omega
  have hfourHundred :
      (year + 1 + 399) / 400 = (year + 399) / 400 + if year % 400 = 0 then 1 else 0 := by
    split <;> omega
  rw [daysBeforeYear, daysBeforeYear, daysInYear, hfour, hhundred, hfourHundred]
  by_cases h : isLeap year = true
  · rw [if_pos h]
    have hdivides := hleap.mp h
    split_ifs <;> omega
  · rw [if_neg h]
    have hdivides : ¬ (year % 4 = 0 ∧ (year % 100 ≠ 0 ∨ year % 400 = 0)) :=
      fun hd => h (hleap.mpr hd)
    split_ifs <;> omega

theorem daysBeforeYear_mono {year year' : Int} (h : year ≤ year') :
    daysBeforeYear year ≤ daysBeforeYear year' := by
  rw [daysBeforeYear, daysBeforeYear]
  omega

theorem daysBeforeMonth_succ (year : Int) {month : Nat} (h : 1 ≤ month) :
    daysBeforeMonth year (month + 1) = daysBeforeMonth year month + daysIn year month := by
  obtain ⟨m, rfl⟩ := Nat.exists_eq_add_of_le' h
  rw [daysBeforeMonth, daysBeforeMonth, Nat.add_sub_cancel, Nat.add_sub_cancel, List.range_succ,
    List.map_append, List.sum_append, List.map_singleton, List.sum_singleton]

/-- The days up to the end of a month are not more than those in front of a later one. -/
theorem daysBeforeMonth_add_le (year : Int) {month month' : Nat} (h : 1 ≤ month)
    (hlt : month < month') :
    daysBeforeMonth year month + daysIn year month ≤ daysBeforeMonth year month' := by
  induction month', hlt using Nat.le_induction with
  | base => exact Nat.le_of_eq (daysBeforeMonth_succ year h).symm
  | succ month' hle ih =>
      rw [daysBeforeMonth_succ year (h.trans (Nat.le_of_succ_le hle))]
      exact ih.trans (Nat.le_add_right _ _)

/-- A year is as long as its months. -/
theorem daysBeforeMonth_year (year : Int) :
    daysBeforeMonth year 12 + daysIn year 12 = daysInYear year := by
  have hfebruary : daysIn year 2 = if isLeap year then 29 else 28 := rfl
  have hmonths : daysBeforeMonth year 12 = 31 + (daysIn year 2 + 275) := rfl
  rw [hmonths, hfebruary, daysInYear]
  show _ + 31 = _
  by_cases h : isLeap year = true
  · rw [if_pos h, if_pos h]
  · rw [if_neg h, if_neg h]

end Calendar

namespace Moment

open Calendar

/-! ## Seconds -/

/-- The days in front of a day, from the beginning of 1970. -/
def dayCount (year : Int) (month day : Nat) : Int :=
  daysBeforeYear year - 719528 + daysBeforeMonth year month + (day - 1)

/-- The seconds in front of these places, from the beginning of 1970. -/
def secondCount (year : Int) (month day hour minute second : Nat) : Int :=
  ((dayCount year month day * 24 + hour) * 60 + minute) * 60 + second

/-- The seconds in front of a moment, from the beginning of 1970. -/
def seconds (t : Moment) : Int := secondCount t.year t.month t.day t.hour t.minute t.second

/-- The moment at these places has them. -/
theorem ofPlaces?_eq_some {year : Int} {month day hour minute second : Nat} {u : Moment}
    (h : ofPlaces? year month day hour minute second = some u) :
    u.year = year ∧ u.month = month ∧ u.day = day ∧ u.hour = hour ∧ u.minute = minute ∧
      u.second = second := by
  rw [ofPlaces?] at h
  split at h
  · rw [← Option.some.inj h]
    exact ⟨rfl, rfl, rfl, rfl, rfl, rfl⟩
  · cases h

theorem seconds_of_ofPlaces {year : Int} {month day hour minute second : Nat} {u : Moment}
    (h : ofPlaces? year month day hour minute second = some u) :
    u.seconds = secondCount year month day hour minute second := by
  obtain ⟨hy, hm, hd, hh, hn, hs⟩ := ofPlaces?_eq_some h
  rw [seconds, hy, hm, hd, hh, hn, hs]

/-! ## Order -/

/-- A day stands behind all days of the years and months in front of it. -/
theorem dayCount_lt {s t : Moment}
    (h : s.year < t.year ∨
      s.year = t.year ∧ (s.month < t.month ∨ s.month = t.month ∧ s.day < t.day)) :
    dayCount s.year s.month s.day < dayCount t.year t.month t.day := by
  have hs := s.places_mem
  have hsday := s.day_mem
  have htday := t.day_mem
  rw [dayCount, dayCount]
  rcases h with hyear | ⟨hyear, hmonth | ⟨hmonth, hday⟩⟩
  · -- the whole year of `s` lies in front of that of `t`
    have hyears := daysBeforeYear_mono (show s.year + 1 ≤ t.year by omega)
    rw [daysBeforeYear_succ] at hyears
    have hmonths : daysBeforeMonth s.year s.month + daysIn s.year s.month ≤ daysInYear s.year := by
      rw [← daysBeforeMonth_year]
      by_cases htwelve : s.month = 12
      · rw [htwelve]
      · have hle := daysBeforeMonth_add_le s.year hs.1.1 (show s.month < 12 by omega)
        omega
    omega
  · have hmonths := daysBeforeMonth_add_le s.year hs.1.1 hmonth
    rw [hyear] at hmonths hsday ⊢
    omega
  · rw [hyear, hmonth]
    omega

theorem seconds_lt_of_lt {s t : Moment} (h : s < t) : s.seconds < t.seconds := by
  have hs := s.places_mem
  have ht := t.places_mem
  have hbefore := (rank_lt_rank_iff s t).mp h
  rw [seconds, seconds, secondCount, secondCount]
  by_cases hday : s.year = t.year ∧ s.month = t.month ∧ s.day = t.day
  · rw [hday.1, hday.2.1, hday.2.2]
    omega
  · have hdays := dayCount_lt (s := s) (t := t) (by omega)
    omega

/-- The order of moments is that of their seconds. -/
theorem lt_iff_seconds_lt (s t : Moment) : s < t ↔ s.seconds < t.seconds :=
  (show StrictMono seconds from fun _ _ => seconds_lt_of_lt).lt_iff_lt.symm

/-! ## The next second -/

variable {t u : Moment}

/-- The first second of the next year follows the last one of the year. -/
theorem seconds_nextYear (hm : t.month = 12) (hd : t.day = 31) (hh : t.hour = 23)
    (hn : t.minute = 59) (hs : t.second = 59) (h : t.nextYear? = some u) :
    u.seconds = t.seconds + 1 := by
  have hyear := daysBeforeYear_succ t.year
  have hmonths := daysBeforeMonth_year t.year
  have htwelve : daysIn t.year 12 = 31 := rfl
  have hone : daysBeforeMonth (t.year + 1) 1 = 0 := rfl
  rw [seconds_of_ofPlaces h, seconds, hm, hd, hh, hn, hs, secondCount, secondCount, dayCount,
    dayCount, hone]
  omega

/-- So does the first second of the next month. -/
theorem seconds_nextMonth (hd : t.day = daysIn t.year t.month) (hh : t.hour = 23)
    (hn : t.minute = 59) (hs : t.second = 59) (h : t.nextMonth? = some u) :
    u.seconds = t.seconds + 1 := by
  have ht := t.places_mem
  rw [nextMonth?] at h
  by_cases hm : t.month < 12
  · rw [if_pos hm] at h
    have hmonth := daysBeforeMonth_succ t.year ht.1.1
    have hday := one_le_daysIn t.year t.month
    rw [seconds_of_ofPlaces h, seconds, hd, hh, hn, hs, secondCount, secondCount, dayCount,
      dayCount, hmonth]
    omega
  · rw [if_neg hm] at h
    have hm12 : t.month = 12 := by omega
    refine seconds_nextYear hm12 ?_ hh hn hs h
    rw [hd, hm12]
    rfl

theorem seconds_nextDay (hh : t.hour = 23) (hn : t.minute = 59) (hs : t.second = 59)
    (h : t.nextDay? = some u) : u.seconds = t.seconds + 1 := by
  have hday := t.day_mem
  rw [nextDay?] at h
  by_cases hd : t.day < daysIn t.year t.month
  · rw [if_pos hd] at h
    rw [seconds_of_ofPlaces h, seconds, hh, hn, hs, secondCount, secondCount, dayCount, dayCount]
    omega
  · rw [if_neg hd] at h
    exact seconds_nextMonth (by omega) hh hn hs h

theorem seconds_nextHour (hn : t.minute = 59) (hs : t.second = 59) (h : t.nextHour? = some u) :
    u.seconds = t.seconds + 1 := by
  have ht := t.places_mem
  rw [nextHour?] at h
  by_cases hh : t.hour < 23
  · rw [if_pos hh] at h
    rw [seconds_of_ofPlaces h, seconds, hn, hs, secondCount, secondCount]
    omega
  · rw [if_neg hh] at h
    exact seconds_nextDay (by omega) hn hs h

theorem seconds_nextMinute (hs : t.second = 59) (h : t.nextMinute? = some u) :
    u.seconds = t.seconds + 1 := by
  have ht := t.places_mem
  rw [nextMinute?] at h
  by_cases hn : t.minute < 59
  · rw [if_pos hn] at h
    rw [seconds_of_ofPlaces h, seconds, hs, secondCount, secondCount]
    omega
  · rw [if_neg hn] at h
    exact seconds_nextHour (by omega) hs h

/-- The carry goes on by one second, whatever places it runs through. -/
theorem seconds_next (h : t.next? = some u) : u.seconds = t.seconds + 1 := by
  have ht := t.places_mem
  rw [next?] at h
  by_cases hs : t.second < 59
  · rw [if_pos hs] at h
    rw [seconds_of_ofPlaces h, seconds, secondCount, secondCount]
    omega
  · rw [if_neg hs] at h
    exact seconds_nextMinute (by omega) h

end Moment

/-! ## Years that begin in March -/

namespace Calendar

/-- The place of a month behind February. -/
def monthsFromMarch (month : Nat) : Nat := if month < 3 then month + 9 else month - 3

/-- The days in front of a month from March on. Behind February, five months in turn have 153
    days. -/
def daysFromMarch (months : Nat) : Nat := (153 * months + 2) / 5

theorem monthsFromMarch_lt {month : Nat} (h : 1 ≤ month ∧ month ≤ 12) :
    monthsFromMarch month < 12 := by
  rw [monthsFromMarch]
  split <;> omega

theorem daysFromMarch_succ (year : Int) {month : Nat} (h : 1 ≤ month ∧ month ≤ 12)
    (hm : month ≠ 2) : daysFromMarch (monthsFromMarch month + 1) =
      daysFromMarch (monthsFromMarch month) + daysIn year month := by
  obtain ⟨hone, htwelve⟩ := h
  interval_cases month <;> first | rfl | exact absurd rfl hm

theorem daysIn_february (year : Int) : daysIn year 2 + 337 = daysInYear year := by
  show (if isLeap year then 29 else 28) + 337 = _
  rw [daysInYear]
  split <;> rfl

theorem daysBeforeMonth_winter (year : Int) {month : Nat} (h : 1 ≤ month ∧ month ≤ 2) :
    daysBeforeMonth year month + 306 = daysFromMarch (monthsFromMarch month) := by
  have hcases : month = 1 ∨ month = 2 := by omega
  rcases hcases with rfl | rfl
  · show 0 + 306 = _
    rfl
  · show 31 + 306 = _
    rfl

theorem daysBeforeMonth_march (year : Int) {month : Nat} (h : 3 ≤ month ∧ month ≤ 12) :
    daysBeforeMonth year month + 306 = daysFromMarch (monthsFromMarch month) + daysInYear year := by
  obtain ⟨hthree, htwelve⟩ := h
  induction month, hthree using Nat.le_induction with
  | base =>
      have hthree : daysBeforeMonth year 3 = 31 + (daysIn year 2 + 0) := rfl
      have hzero : daysFromMarch (monthsFromMarch 3) = 0 := rfl
      rw [hthree, hzero, ← daysIn_february]
      omega
  | succ month hle ih =>
      have hfront := ih (by omega)
      have hmonth := daysFromMarch_succ year (show 1 ≤ month ∧ month ≤ 12 by omega) (by omega)
      have hnext : monthsFromMarch (month + 1) = monthsFromMarch month + 1 := by
        rw [monthsFromMarch, if_neg (by omega), monthsFromMarch, if_neg (by omega)]
        omega
      rw [daysBeforeMonth_succ year (by omega), hnext, hmonth]
      omega

/-- The days in front of the March of a year, from the beginning of year 0. -/
theorem daysBeforeYear_add_one (year : Int) :
    daysBeforeYear (year + 1) = 365 * year + year / 4 - year / 100 + year / 400 + 366 := by
  rw [daysBeforeYear]
  omega

/-- Within four centuries the days tell the year, if each year has its leap day at the end. -/
theorem year_of_days {year day days : Nat} (hyear : year < 400) (hday : day < daysInYear (year + 1))
    (hdays : 365 * year + year / 4 - year / 100 + day = days) :
    (days - days / 1460 + days / 36524 - days / 146096) / 365 = year := by
  have hleap := isLeap_iff (year + 1)
  have hlt : day < 365 ∨ day = 365 ∧ year % 4 = 3 ∧ (year % 100 ≠ 99 ∨ year = 399) := by
    rw [daysInYear] at hday
    split at hday
    · rename_i h
      have hdivides := hleap.mp h
      omega
    · exact Or.inl hday
  -- the quotients are out by one at most, and only behind the last leap day of their span
  have hcentury : days / 36524 = year / 100 ∨ days / 36524 = year / 100 + 1 := by omega
  have hfour : days / 1460 = year / 4 ∨ days / 1460 = year / 4 + 1 := by omega
  omega

end Calendar

namespace Moment

open Calendar

section March

variable (t : Moment)

/-- The year of a moment, if years began in March. -/
def marchYear : Int := if t.month < 3 then t.year - 1 else t.year

/-- The days since the beginning of March. -/
def marchDay : Nat := daysFromMarch (monthsFromMarch t.month) + (t.day - 1)

theorem dayCount_march : dayCount t.year t.month t.day + 719468 =
    365 * t.marchYear + t.marchYear / 4 - t.marchYear / 100 + t.marchYear / 400 + t.marchDay := by
  have ht := t.places_mem
  rw [dayCount, marchDay]
  by_cases h : t.month < 3
  · have hyear := daysBeforeYear_add_one (t.year - 1)
    have hmonth := daysBeforeMonth_winter t.year (show 1 ≤ t.month ∧ t.month ≤ 2 by omega)
    rw [Int.sub_add_cancel] at hyear
    rw [marchYear, if_pos h]
    omega
  · have hyear := daysBeforeYear_succ t.year
    rw [daysBeforeYear_add_one] at hyear
    have hmonth := daysBeforeMonth_march t.year (show 3 ≤ t.month ∧ t.month ≤ 12 by omega)
    rw [marchYear, if_neg h]
    omega

/-- A year that begins in March has its leap day at the end. -/
theorem marchDay_lt : t.marchDay < daysInYear (t.marchYear + 1) := by
  have ht := t.places_mem
  have hday := t.day_mem
  have hlt := monthsFromMarch_lt ht.1
  rw [marchDay]
  by_cases h : t.month = 2
  · have hyear : t.marchYear + 1 = t.year := by
      rw [marchYear, if_pos (by omega)]
      omega
    have hfront : daysFromMarch (monthsFromMarch 2) = 337 := rfl
    rw [h] at hday
    rw [hyear, h, hfront, ← daysIn_february]
    omega
  · have hyear := daysInYear_mem (t.marchYear + 1)
    have hmonth : monthsFromMarch t.month < 11 := by
      rw [monthsFromMarch]
      split <;> omega
    rw [daysFromMarch]
    omega

/-- The days since March tell the month. -/
theorem month_of_marchDay : (5 * t.marchDay + 2) / 153 = monthsFromMarch t.month := by
  have ht := t.places_mem
  have hday := t.day_mem
  have hlt : t.marchDay < daysFromMarch (monthsFromMarch t.month + 1) := by
    rw [marchDay]
    by_cases h : t.month = 2
    · have hfront : daysFromMarch (monthsFromMarch 2) = 337 := rfl
      have hbehind : daysFromMarch (monthsFromMarch 2 + 1) = 367 := rfl
      have hfebruary := daysIn_february t.year
      have hyear := daysInYear_mem t.year
      rw [h] at hday
      rw [h, hfront, hbehind]
      omega
    · rw [daysFromMarch_succ t.year ht.1 h]
      omega
  rw [marchDay, daysFromMarch, daysFromMarch] at hlt
  rw [marchDay, daysFromMarch]
  omega

theorem ofPlaces?_self : ofPlaces? t.year t.month t.day t.hour t.minute t.second = some t :=
  dif_pos ⟨t.year_mem, t.month_mem, t.day_mem, t.hour_lt, t.minute_lt, t.second_lt⟩

/-- The days of a moment, by spans of four centuries. -/
theorem exists_marchYear : ∃ year : Nat, year < 400 ∧
    t.marchYear = t.marchYear / 400 * 400 + year ∧ t.marchDay < daysInYear ((year : Int) + 1) ∧
    dayCount t.year t.month t.day + 719468 = t.marchYear / 400 * 146097 +
      (365 * year + year / 4 - year / 100 + t.marchDay : Nat) := by
  have hcount := t.dayCount_march
  have hlt := t.marchDay_lt
  obtain ⟨year, hyear⟩ : ∃ year : Nat, t.marchYear % 400 = year :=
    ⟨(t.marchYear % 400).toNat, by omega⟩
  have hsame : isLeap (t.marchYear + 1) = isLeap ((year : Int) + 1) := by
    rw [Bool.eq_iff_iff, isLeap_iff, isLeap_iff]
    omega
  rw [daysInYear, hsame] at hlt
  refine ⟨year, by omega, by omega, hlt, ?_⟩
  have hfour : t.marchYear / 4 = t.marchYear / 400 * 100 + year / 4 := by omega
  have hhundred : t.marchYear / 100 = t.marchYear / 400 * 4 + year / 100 := by omega
  omega

/-- The count of seconds is read back as the moment. -/
theorem ofSeconds?_seconds : ofSeconds? t.seconds = some t := by
  have ht := t.places_mem
  have hmonth := t.month_of_marchDay
  obtain ⟨year, hyear, hspan, hlt, hcount⟩ := t.exists_marchYear
  generalize hdays : 365 * year + year / 4 - year / 100 + t.marchDay = days at hcount
  have hback := year_of_days hyear hlt hdays
  have hrest : days - (365 * year + year / 4 - year / 100) = t.marchDay := by omega
  have hbound := daysInYear_mem ((year : Int) + 1)
  have hwhole : t.seconds / 86400 + 719468 = t.marchYear / 400 * 146097 + days := by
    rw [← hcount, seconds, secondCount]
    omega
  have hdiv : (t.seconds / 86400 + 719468) / 146097 = t.marchYear / 400 := by omega
  have hmod : ((t.seconds / 86400 + 719468) % 146097).toNat = days := by omega
  have hsecond : (t.seconds % 86400).toNat = (t.hour * 60 + t.minute) * 60 + t.second := by
    rw [seconds, secondCount]
    omega
  have hyearBack : t.marchYear / 400 * 400 + (year : Int) +
      (if monthsFromMarch t.month < 10 then 0 else 1) = t.year := by
    rw [← hspan, marchYear, monthsFromMarch]
    split_ifs <;> omega
  have hmonthBack : (if monthsFromMarch t.month < 10 then monthsFromMarch t.month + 3
      else monthsFromMarch t.month - 9) = t.month := by
    rw [monthsFromMarch]
    split_ifs <;> omega
  have hdayBack : t.marchDay - (153 * monthsFromMarch t.month + 2) / 5 + 1 = t.day := by
    rw [marchDay, daysFromMarch]
    omega
  have htimeBack : ((t.hour * 60 + t.minute) * 60 + t.second) / 3600 = t.hour ∧
      ((t.hour * 60 + t.minute) * 60 + t.second) / 60 % 60 = t.minute ∧
      ((t.hour * 60 + t.minute) * 60 + t.second) % 60 = t.second := by omega
  rw [ofSeconds?]
  simp only [hdiv, hmod, hback, hrest, hmonth, hsecond, hyearBack, hmonthBack, hdayBack,
    htimeBack.1, htimeBack.2.1, htimeBack.2.2]
  exact t.ofPlaces?_self

/-- One second more in the count is the next moment. -/
theorem ofSeconds?_add_one : ofSeconds? (t.seconds + 1) = t.next? := by
  cases hnext : t.next? with
  | some u => rw [← seconds_next hnext, u.ofSeconds?_seconds]
  | none =>
      rw [(next?_eq_none_iff t).mp hnext]
      decide

end March

end Moment

end Scaffold
