import Scaffold.Proofs.Calendar.AnyYear
import Scaffold.Proofs.Calendar.Seconds

/-!
# Stamps embed moments

  In the plain years a stamp is the calendar in another spelling. Its fourteen
  digits are read back, place by place, as the moment, and what is read back at
  all is a stamp. Stamps stand in byte order as moments stand in the order of
  time, which is that of the seconds they count. So the stamp of the next second
  is the least stamp behind a stamp, over all carries between the second and the
  year.
-/

namespace Scaffold

/-! ## Digits as numbers -/

theorem ofDigitChars_digits {width n : Nat} (h : n < 10 ^ width) :
    Nat.ofDigitChars 10 (digits width n) 0 = n := by
  cases width with
  | zero =>
      have hn : n = 0 := by omega
      rw [hn]
      rfl
  | succ width => rw [← toList_padded h, ofDigitChars_padded]

theorem toNat_digitChar_sub {d : Nat} (h : d < 10) : (Nat.digitChar d).toNat - '0'.toNat = d := by
  have hall : ∀ d : Fin 10, (Nat.digitChar d).toNat - '0'.toNat = d := by decide
  exact hall ⟨d, h⟩

theorem exists_digitChar {c : Char} (h : c.isDigit = true) : ∃ d < 10, c = Nat.digitChar d := by
  have hall : ∀ d : Fin 10, Char.ofNat (48 + d) = Nat.digitChar d := by decide
  have hrange : 48 ≤ c.toNat ∧ c.toNat ≤ 57 := by
    simpa [Char.isDigit, UInt32.le_iff_toNat_le] using h
  refine ⟨c.toNat - 48, by omega, ?_⟩
  rw [← hall ⟨c.toNat - 48, by omega⟩, Nat.add_sub_cancel' hrange.1, Char.ofNat_toNat]

/-- Digits are the digits of the number that they form, which their count holds. -/
theorem digits_ofDigitChars {ds : List Char} (h : ∀ d ∈ ds, d.isDigit = true) :
    Nat.ofDigitChars 10 ds 0 < 10 ^ ds.length ∧
      digits ds.length (Nat.ofDigitChars 10 ds 0) = ds := by
  induction ds using List.reverseRecOn with
  | nil => exact ⟨Nat.one_pos, rfl⟩
  | append_singleton ds d ih =>
      obtain ⟨hlt, hds⟩ := ih fun e he => h e (List.mem_append_left _ he)
      obtain ⟨v, hv, rfl⟩ := exists_digitChar (h d (List.mem_append_right _ List.mem_cons_self))
      have hvalue : Nat.ofDigitChars 10 (ds ++ [Nat.digitChar v]) 0 =
          10 * Nat.ofDigitChars 10 ds 0 + v := by
        rw [Nat.ofDigitChars_append, Nat.ofDigitChars_cons, toNat_digitChar_sub hv]
        rfl
      have hfront : (10 * Nat.ofDigitChars 10 ds 0 + v) / 10 = Nat.ofDigitChars 10 ds 0 := by omega
      have hlast : (10 * Nat.ofDigitChars 10 ds 0 + v) % 10 = v := by omega
      rw [hvalue, List.length_append, List.length_singleton, digits, hfront, hlast, hds,
        Nat.pow_succ]
      exact ⟨by omega, rfl⟩

namespace Moment

variable {text : String} {t u : Moment}

/-! ## Reading a stamp -/

/-- The number that `width` digits of a text form, behind the first `start` of its characters. -/
def placeAt (text : String) (start width : Nat) : Nat :=
  Nat.ofDigitChars 10 ((text.toList.drop start).take width) 0

/-- The moment whose places a text of fourteen digits writes one behind the other. -/
def ofStamp? (text : String) : Option Moment :=
  if text.length = 14 ∧ text.toList.all Char.isDigit then
    ofPlaces? (placeAt text 0 4) (placeAt text 4 2) (placeAt text 6 2) (placeAt text 8 2)
      (placeAt text 10 2) (placeAt text 12 2)
  else none

theorem digits_placeAt (h : ∀ d ∈ text.toList, d.isDigit = true) {start width : Nat}
    (hend : start + width ≤ text.length) : placeAt text start width < 10 ^ width ∧
      digits width (placeAt text start width) = (text.toList.drop start).take width := by
  have hlength : ((text.toList.drop start).take width).length = width := by
    rw [List.length_take, List.length_drop, String.length_toList]
    omega
  have hall : ∀ d ∈ (text.toList.drop start).take width, d.isDigit = true :=
    fun d hd => h d (List.drop_subset _ _ (List.take_subset _ _ hd))
  have hdigits := digits_ofDigitChars hall
  rw [hlength] at hdigits
  exact hdigits

theorem ofStamp?_stamp (h : t.HasPlainYear) : ofStamp? t.stamp = some t := by
  obtain ⟨hlength, hdigits⟩ := stamp_digits h
  have ht := t.places_mem
  have hyear : ((t.year.toNat : Nat) : Int) = t.year := Int.toNat_of_nonneg h.1
  have hplaces : placeAt t.stamp 0 4 = t.year.toNat ∧ placeAt t.stamp 4 2 = t.month ∧
      placeAt t.stamp 6 2 = t.day ∧ placeAt t.stamp 8 2 = t.hour ∧
      placeAt t.stamp 10 2 = t.minute ∧ placeAt t.stamp 12 2 = t.second := by
    rw [← ofDigitChars_digits h.toNat_lt, ← ofDigitChars_digits (show t.month < 10 ^ 2 by omega),
      ← ofDigitChars_digits (show t.day < 10 ^ 2 by omega),
      ← ofDigitChars_digits (show t.hour < 10 ^ 2 by omega),
      ← ofDigitChars_digits (show t.minute < 10 ^ 2 by omega),
      ← ofDigitChars_digits (show t.second < 10 ^ 2 by omega)]
    simp [placeAt, toList_stamp h, List.drop_append, List.drop_eq_nil_of_le,
      List.take_of_length_le]
  obtain ⟨h₁, h₂, h₃, h₄, h₅, h₆⟩ := hplaces
  rw [ofStamp?, if_pos ⟨hlength, List.all_eq_true.mpr hdigits⟩, h₁, h₂, h₃, h₄, h₅, h₆, hyear]
  exact t.ofPlaces?_self

/-- What is read back is the stamp of a plain year, and its moment. -/
theorem ofStamp?_eq_some_iff : ofStamp? text = some t ↔ t.HasPlainYear ∧ t.stamp = text := by
  constructor
  · intro h
    rw [ofStamp?] at h
    split at h
    · rename_i hform
      have hdigits := List.all_eq_true.mp hform.2
      obtain ⟨hy, hm, hd, hh, hn, hs⟩ := ofPlaces?_eq_some h
      have hyear := digits_placeAt hdigits (show 0 + 4 ≤ text.length by omega)
      have hplain : t.HasPlainYear := ⟨by omega, by omega⟩
      refine ⟨hplain, String.toList_inj.mp ?_⟩
      rw [toList_stamp hplain, hy, hm, hd, hh, hn, hs, Int.toNat_natCast, hyear.2,
        (digits_placeAt hdigits (by omega)).2, (digits_placeAt hdigits (by omega)).2,
        (digits_placeAt hdigits (by omega)).2, (digits_placeAt hdigits (by omega)).2,
        (digits_placeAt hdigits (by omega)).2]
      rw [List.drop_zero]
      simp only [← List.take_add]
      exact List.take_of_length_le (by rw [String.length_toList]; omega)
    · exact nomatch h
  · rintro ⟨hplain, rfl⟩
    exact ofStamp?_stamp hplain

/-! ## The next stamp -/

/-- `text` is the least stamp of a plain year behind `before`, in byte order. -/
def IsLeastStampBehind (before text : String) : Prop :=
  (∃ u : Moment, u.HasPlainYear ∧ u.stamp = text) ∧ Text.Precedes before text ∧
    ∀ v : Moment, v.HasPlainYear → Text.Precedes before v.stamp →
      v.stamp = text ∨ Text.Precedes text v.stamp

theorem HasPlainYear.of_lt (h : t.HasPlainYear) (hlt : t < u) (hu : u.year ≤ 9999) :
    u.HasPlainYear := by
  have hbefore := (rank_lt_rank_iff t u).mp hlt
  have hyear := h.1
  exact ⟨by omega, hu⟩

/-- There is a second behind every moment of a plain year. -/
theorem HasPlainYear.exists_next (h : t.HasPlainYear) : ∃ u, t.next? = some u := by
  refine Option.ne_none_iff_exists'.mp fun hnone => ?_
  rw [next?_eq_none_iff] at hnone
  rw [hnone] at h
  exact absurd h (by decide)

theorem isLeastStampBehind_next (h : t.HasPlainYear) (hnext : t.next? = some u)
    (hu : u.year ≤ 9999) : IsLeastStampBehind t.stamp u.stamp := by
  obtain ⟨hlt, hleast⟩ := isLeast_of_next?_eq_some hnext
  have hplain := h.of_lt hlt hu
  refine ⟨⟨u, hplain, rfl⟩, (stamp_precedes_iff h hplain).mpr hlt, fun v hv hbehind => ?_⟩
  have hle : u ≤ v := hleast ((stamp_precedes_iff h hv).mp hbehind)
  rcases eq_or_lt_of_le hle with rfl | hlater
  · exact Or.inl rfl
  · exact Or.inr ((stamp_precedes_iff hplain hv).mpr hlater)

/-- **Stamps embed moments.** A clock that shows a whole second of a plain year gives a stamp of
    fourteen digits, from which the moment is read back. Two such stamps stand in byte order
    exactly if their moments stand in the order of time, which is that of the seconds they count.
    One second more in that count is the next moment, and as long as its year is plain, its stamp
    is the least one behind. -/
theorem stamp_embeds {a b : Moment} (ha : a.HasPlainYear) (hb : b.HasPlainYear) :
    Reading.stamp ⟨a, 0⟩ = a.stamp ∧
    (a.stamp.length = 14 ∧ ∀ c ∈ a.stamp.toList, c.isDigit = true) ∧
    ofStamp? a.stamp = some a ∧
    (Text.Precedes a.stamp b.stamp ↔ a < b) ∧ (a < b ↔ a.seconds < b.seconds) ∧
    ∃ u, ofSeconds? (a.seconds + 1) = some u ∧ a.next? = some u ∧
      (u.year ≤ 9999 → IsLeastStampBehind a.stamp u.stamp) := by
  obtain ⟨u, hnext⟩ := ha.exists_next
  have hwhole : Reading.stamp ⟨a, 0⟩ = a.stamp := by
    rw [Reading.stamp, Nat.zero_div, Nat.add_zero]
    rfl
  exact ⟨hwhole, stamp_digits ha, ofStamp?_stamp ha, stamp_precedes_iff ha hb,
    lt_iff_seconds_lt a b, u, a.ofSeconds?_add_one.trans hnext, hnext,
    isLeastStampBehind_next ha hnext⟩

/-- The last second of a February without a leap day, though its year divides by four. -/
def februaryEnd : Moment := (ofPlaces? 1900 2 28 23 59 59).get (by decide)

/-- The second behind it. -/
def marchBegin : Moment := (ofPlaces? 1900 3 1 0 0 0).get (by decide)

theorem stamp_embeds_sample :
    februaryEnd.HasPlainYear ∧ marchBegin.HasPlainYear ∧
    februaryEnd.stamp = "19000228235959" ∧ marchBegin.stamp = "19000301000000" ∧
    ofStamp? "19000228235959" = some februaryEnd ∧
    Text.Precedes "19000228235959" "19000301000000" ∧ februaryEnd < marchBegin ∧
    februaryEnd.next? = some marchBegin ∧
    IsLeastStampBehind "19000228235959" "19000301000000" := by
  have hfebruary : februaryEnd.stamp = "19000228235959" := by decide
  have hmarch : marchBegin.stamp = "19000301000000" := by decide
  have hplain : februaryEnd.HasPlainYear := by decide
  have hplain' : marchBegin.HasPlainYear := by decide
  obtain ⟨-, -, hread, horder, hseconds, u, -, hnext, hleast⟩ := stamp_embeds hplain hplain'
  have hlt : februaryEnd < marchBegin := hseconds.mpr (by decide)
  cases hnext.symm.trans (show februaryEnd.next? = some marchBegin from rfl)
  rw [hfebruary] at hread horder hleast
  rw [hmarch] at horder hleast
  exact ⟨hplain, hplain', hfebruary, hmarch, hread, horder.mpr hlt, hlt, hnext, hleast (by decide)⟩

end Moment

end Scaffold
