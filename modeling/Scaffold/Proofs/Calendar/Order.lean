import Mathlib.Order.Bounds.Basic
import Scaffold.Calendar

/-!
# The order of moments

  `rank` reads the places of a moment as one number. Two facts about it carry
  everything else: it compares moments place by place, from the year down to
  the second, and it tells any two moments apart. So moments are linearly
  ordered, and the carry of `next?` gives the least moment behind a given one;
  only the last moment of the calendar has none.
-/

namespace Scaffold

namespace Moment

open Calendar

/-! ## Place by place -/

/-- The widest range of each place below the year. -/
theorem places_mem (t : Moment) :
    (1 ≤ t.month ∧ t.month ≤ 12) ∧ (1 ≤ t.day ∧ t.day ≤ 31) ∧ t.hour < 24 ∧ t.minute < 60 ∧
      t.second < 60 :=
  ⟨t.month_mem, ⟨t.day_mem.1, t.day_mem.2.trans (daysIn_le t.year t.month)⟩, t.hour_lt,
    t.minute_lt, t.second_lt⟩

/-- Of the moment and these places, the moment has the smaller first place that differs. -/
abbrev Before (t : Moment) (year : Int) (month day hour minute second : Nat) : Prop :=
  t.year < year ∨ t.year = year ∧
    (t.month < month ∨ t.month = month ∧
    (t.day < day ∨ t.day = day ∧
    (t.hour < hour ∨ t.hour = hour ∧
    (t.minute < minute ∨ t.minute = minute ∧ t.second < second))))

/-- The smaller rank has the smaller first place that differs. -/
theorem rank_lt_rank_iff (s t : Moment) :
    s.rank < t.rank ↔ s.Before t.year t.month t.day t.hour t.minute t.second := by
  have hs := s.places_mem
  have ht := t.places_mem
  simp only [rank]
  omega

theorem ext_places {s t : Moment} (hy : s.year = t.year) (hm : s.month = t.month)
    (hd : s.day = t.day) (hh : s.hour = t.hour) (hn : s.minute = t.minute)
    (hs : s.second = t.second) : s = t := by
  cases s
  cases t
  simp only [mk.injEq]
  exact ⟨hy, hm, hd, hh, hn, hs⟩

/-- No two moments have one rank. -/
theorem rank_injective : Function.Injective rank := by
  intro s t h
  have hst : ¬ s.rank < t.rank := by omega
  have hts : ¬ t.rank < s.rank := by omega
  rw [rank_lt_rank_iff] at hst hts
  exact ext_places (by omega) (by omega) (by omega) (by omega) (by omega) (by omega)

/-- Moments in the order of time. -/
instance : LinearOrder Moment := LinearOrder.lift' rank rank_injective

theorem lt_iff_rank_lt (s t : Moment) : s < t ↔ s.rank < t.rank := Iff.rfl

theorem earlier_iff (s t : Moment) : s.earlier t = true ↔ s < t := by
  rw [lt_iff_rank_lt, earlier, decide_eq_true_iff]

/-! ## The last moment -/

/-- The last second of the calendar. -/
def latest : Moment where
  year := lastYear
  month := 12
  day := 31
  hour := 23
  minute := 59
  second := 59
  year_mem := by decide
  month_mem := by decide
  day_mem := by decide
  hour_lt := by decide
  minute_lt := by decide
  second_lt := by decide

theorem le_latest (t : Moment) : t ≤ latest := by
  rw [← not_lt, lt_iff_rank_lt, rank_lt_rank_iff]
  have hy := t.year_mem
  have ht := t.places_mem
  simp only [Before, latest]
  omega

/-! ## The next second -/

/-- `o` is the least moment behind `t`; there is none behind the last moment. -/
def IsNext (t : Moment) : Option Moment → Prop
  | some u => IsLeast {v | t < v} u
  | none => t = latest

/-- Places that make a moment behind `t`, with none between the two, are the next moment. -/
theorem isNext_ofPlaces {t : Moment} {year : Int} {month day hour minute second : Nat}
    (hy : firstYear ≤ year ∧ year ≤ lastYear) (hm : 1 ≤ month ∧ month ≤ 12)
    (hd : 1 ≤ day ∧ day ≤ daysIn year month) (hh : hour < 24) (hn : minute < 60)
    (hs : second < 60) (hlt : t.Before year month day hour minute second)
    (hgap : ∀ v : Moment, t.Before v.year v.month v.day v.hour v.minute v.second →
      ¬ v.Before year month day hour minute second) :
    IsNext t (ofPlaces? year month day hour minute second) := by
  rw [ofPlaces?, dif_pos ⟨hy, hm, hd, hh, hn, hs⟩]
  constructor
  · exact (rank_lt_rank_iff t _).mpr hlt
  · intro v hv
    refine not_lt.mp fun hvu => ?_
    exact hgap v ((rank_lt_rank_iff t v).mp hv) ((rank_lt_rank_iff v _).mp hvu)

/-- A moment in the month of another one has no day behind the end of that month. -/
theorem day_le_of_month_eq {t v : Moment} (hy : v.year = t.year) (hm : v.month = t.month) :
    v.day ≤ daysIn t.year t.month := by
  rw [← hy, ← hm]
  exact v.day_mem.2

theorem isNext_nextYear {t : Moment} (hm : t.month = 12) (hd : t.day = 31) (hh : t.hour = 23)
    (hn : t.minute = 59) (hs : t.second = 59) : IsNext t t.nextYear? := by
  have hty := t.year_mem
  by_cases hlast : t.year < lastYear
  · refine isNext_ofPlaces (by omega) (by decide) ⟨Nat.le_refl 1, one_le_daysIn _ _⟩ (by decide)
      (by decide) (by decide) (by omega) ?_
    intro v _
    have hv := v.places_mem
    omega
  · have hnone : t.nextYear? = none := by
      rw [nextYear?, ofPlaces?, dif_neg (by omega)]
    rw [hnone]
    exact ext_places (show t.year = lastYear by omega) hm hd hh hn hs

theorem isNext_nextMonth {t : Moment} (hd : t.day = daysIn t.year t.month) (hh : t.hour = 23)
    (hn : t.minute = 59) (hs : t.second = 59) : IsNext t t.nextMonth? := by
  have ht := t.places_mem
  rw [nextMonth?]
  by_cases hm : t.month < 12
  · rw [if_pos hm]
    refine isNext_ofPlaces t.year_mem (by omega) ⟨Nat.le_refl 1, one_le_daysIn _ _⟩ (by decide)
      (by decide) (by decide) (by omega) ?_
    intro v _
    have hv := v.places_mem
    -- `t` has the last day of its month, so nothing behind `t` is left in it
    have hday := day_le_of_month_eq (t := t) (v := v)
    omega
  · rw [if_neg hm]
    have hm12 : t.month = 12 := by omega
    refine isNext_nextYear hm12 ?_ hh hn hs
    rw [hd, hm12]
    rfl

theorem isNext_nextDay {t : Moment} (hh : t.hour = 23) (hn : t.minute = 59)
    (hs : t.second = 59) : IsNext t t.nextDay? := by
  have ht := t.places_mem
  have hday := t.day_mem
  rw [nextDay?]
  by_cases hd : t.day < daysIn t.year t.month
  · rw [if_pos hd]
    refine isNext_ofPlaces t.year_mem t.month_mem ⟨by omega, hd⟩ (by decide) (by decide)
      (by decide) (by omega) ?_
    intro v _
    have hv := v.places_mem
    omega
  · rw [if_neg hd]
    exact isNext_nextMonth (by omega) hh hn hs

theorem isNext_nextHour {t : Moment} (hn : t.minute = 59) (hs : t.second = 59) :
    IsNext t t.nextHour? := by
  have ht := t.places_mem
  rw [nextHour?]
  by_cases hh : t.hour < 23
  · rw [if_pos hh]
    refine isNext_ofPlaces t.year_mem t.month_mem t.day_mem (by omega) (by decide) (by decide)
      (by omega) ?_
    intro v _
    have hv := v.places_mem
    omega
  · rw [if_neg hh]
    exact isNext_nextDay (by omega) hn hs

theorem isNext_nextMinute {t : Moment} (hs : t.second = 59) : IsNext t t.nextMinute? := by
  have ht := t.places_mem
  rw [nextMinute?]
  by_cases hn : t.minute < 59
  · rw [if_pos hn]
    refine isNext_ofPlaces t.year_mem t.month_mem t.day_mem t.hour_lt (by omega) (by decide)
      (by omega) ?_
    intro v _
    have hv := v.places_mem
    omega
  · rw [if_neg hn]
    exact isNext_nextHour (by omega) hs

/-- The carry of a second gives the next moment, whatever places it runs through. -/
theorem isNext_next (t : Moment) : IsNext t t.next? := by
  have ht := t.places_mem
  rw [next?]
  by_cases hs : t.second < 59
  · rw [if_pos hs]
    refine isNext_ofPlaces t.year_mem t.month_mem t.day_mem t.hour_lt t.minute_lt (by omega)
      (by omega) ?_
    intro v _
    have hv := v.places_mem
    omega
  · rw [if_neg hs]
    exact isNext_nextMinute (by omega)

/-- The next second is the least moment behind. -/
theorem isLeast_of_next?_eq_some {t u : Moment} (h : t.next? = some u) :
    IsLeast {v | t < v} u := by
  have hn := isNext_next t
  rw [h] at hn
  exact hn

/-- Only the last moment has no next second. -/
theorem next?_eq_none_iff (t : Moment) : t.next? = none ↔ t = latest := by
  constructor
  · intro h
    have hn := isNext_next t
    rw [h] at hn
    exact hn
  · intro h
    cases hu : t.next? with
    | none => rfl
    | some u =>
        have htu : t < u := (isLeast_of_next?_eq_some hu).1
        rw [h] at htu
        exact absurd (le_latest u) (not_le.mpr htu)

end Moment

end Scaffold
