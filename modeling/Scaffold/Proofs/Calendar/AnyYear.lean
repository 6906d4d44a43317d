import Scaffold.Proofs.Calendar.Stamp

/-!
# Stamps of all years

  Outside the plain years a stamp begins with a sign and may have more than
  four digits for its year, so stamps are no longer in byte order. They still
  tell moments apart, also with other text behind them, as long as that text
  begins with no digit. The heart is that nothing has to be known about where
  the year ends: the ten digits at the end are of fixed width, and what is in
  front of them is read back as a number, whatever zeros it begins with.
-/

namespace Scaffold

/-- Zeros in front do not change what is read back. -/
theorem ofDigitChars_padded (width n : Nat) :
    Nat.ofDigitChars 10 (Moment.padded width n).toList 0 = n := by
  rw [Moment.padded, String.toList_ofList, Nat.ofDigitChars_append]
  have hzeros : ∀ k, Nat.ofDigitChars 10 (List.replicate k '0') 0 = 0 := by
    intro k
    induction k with
    | zero => rfl
    | succ k ih => exact ih
  rw [hzeros, Nat.ofDigitChars_toDigits (by decide) (by decide)]

theorem isDigit_of_mem_padded {width n : Nat} {c : Char}
    (h : c ∈ (Moment.padded width n).toList) : c.isDigit = true := by
  rw [Moment.padded, String.toList_ofList] at h
  rcases List.mem_append.mp h with h | h
  · rw [List.eq_of_mem_replicate h]
    rfl
  · exact Nat.isDigit_of_mem_toDigits (by decide) (by decide) h

theorem digits_inj {width m n : Nat} (hm : m < 10 ^ width) (hn : n < 10 ^ width)
    (h : digits width m = digits width n) : m = n :=
  (digitBytes_inj hm hn).mp (congrArg (List.flatMap String.utf8EncodeChar) h)

/-- Digits in front of a character that is none are determined by the whole. -/
theorem digits_of_append {ds ds' rest rest' : List Char} {c c' : Char}
    (hds : ∀ d ∈ ds, d.isDigit = true) (hds' : ∀ d ∈ ds', d.isDigit = true)
    (hc : c.isDigit = false) (hc' : c'.isDigit = false)
    (h : ds ++ c :: rest = ds' ++ c' :: rest') : ds = ds' := by
  have htake := congrArg (List.takeWhile Char.isDigit) h
  rw [List.takeWhile_append_of_pos hds, List.takeWhile_append_of_pos hds',
    List.takeWhile_cons_of_neg (by simp [hc]), List.takeWhile_cons_of_neg (by simp [hc']),
    List.append_nil, List.append_nil] at htake
  exact htake

namespace Moment

/-! ## Signs and digits -/

/-- The sign of a year that is not plain. -/
def yearSign (year : Int) : List Char :=
  if 0 ≤ year ∧ year ≤ 9999 then [] else if year < 0 then ['-'] else ['+']

theorem toList_yearText (year : Int) :
    (yearText year).toList = yearSign year ++ (padded 4 year.natAbs).toList := by
  rw [yearText, yearSign]
  by_cases hplain : 0 ≤ year ∧ year ≤ 9999
  · rw [if_pos hplain, if_pos hplain, List.nil_append]
    congr 2
    omega
  · rw [if_neg hplain, if_neg hplain, String.toList_append]
    by_cases hneg : year < 0
    · rw [if_pos hneg, if_pos hneg]
      rfl
    · rw [if_neg hneg, if_neg hneg]
      rfl

theorem mem_yearSign {year : Int} {c : Char} (h : c ∈ yearSign year) : c = '-' ∨ c = '+' := by
  rw [yearSign] at h
  split_ifs at h
  · exact nomatch h
  · exact Or.inl (List.mem_singleton.mp h)
  · exact Or.inr (List.mem_singleton.mp h)

theorem year_eq {y z : Int} (hsign : yearSign y = yearSign z) (habs : y.natAbs = z.natAbs) :
    y = z := by
  rw [yearSign, yearSign] at hsign
  -- equal signs put both years on one side of zero
  split_ifs at hsign <;> first | omega | exact nomatch hsign

variable (t u : Moment)

/-- The places below the year, of two digits each. -/
def lowDigits : List Char :=
  digits 2 t.month ++ digits 2 t.day ++ digits 2 t.hour ++ digits 2 t.minute ++ digits 2 t.second

theorem length_lowDigits : t.lowDigits.length = 10 := by
  simp [lowDigits]

theorem isDigit_of_mem_lowDigits {c : Char} (h : c ∈ t.lowDigits) : c.isDigit = true := by
  rw [lowDigits] at h
  simp only [List.mem_append, or_assoc] at h
  rcases h with h | h | h | h | h <;> exact isDigit_of_mem_digits h

/-- What a stamp holds behind its sign. -/
def stampDigits : List Char := (padded 4 t.year.natAbs).toList ++ t.lowDigits

theorem isDigit_of_mem_stampDigits {c : Char} (h : c ∈ t.stampDigits) : c.isDigit = true := by
  rcases List.mem_append.mp h with h | h
  · exact isDigit_of_mem_padded h
  · exact t.isDigit_of_mem_lowDigits h

theorem toList_stamp_sign : t.stamp.toList = yearSign t.year ++ t.stampDigits := by
  have ht := t.places_mem
  rw [stamp, stampWith, stampDigits, lowDigits]
  simp only [String.toList_append, toList_yearText]
  rw [toList_padded (show t.month < 10 ^ 2 by omega), toList_padded (show t.day < 10 ^ 2 by omega),
    toList_padded (show t.hour < 10 ^ 2 by omega), toList_padded (show t.minute < 10 ^ 2 by omega),
    toList_padded (show t.second < 10 ^ 2 by omega)]
  simp only [List.append_assoc]

theorem stampDigits_ne_nil : t.stampDigits ≠ [] := by
  intro h
  have hlength := congrArg List.length h
  rw [stampDigits, List.length_append, t.length_lowDigits] at hlength
  exact nomatch hlength

/-! ## Telling moments apart -/

variable {t u}

/-- Digits alone tell the size of the year and everything below the year. -/
theorem stampDigits_inj (h : t.stampDigits = u.stampDigits) :
    t.year.natAbs = u.year.natAbs ∧ t.lowDigits = u.lowDigits := by
  rw [stampDigits, stampDigits] at h
  obtain ⟨hyear, hlow⟩ := List.append_inj' h (by rw [t.length_lowDigits, u.length_lowDigits])
  have hvalue := congrArg (Nat.ofDigitChars 10 · 0) hyear
  simp only [ofDigitChars_padded] at hvalue
  exact ⟨hvalue, hlow⟩

theorem eq_of_lowDigits (hyear : t.year = u.year) (h : t.lowDigits = u.lowDigits) : t = u := by
  have ht := t.places_mem
  have hu := u.places_mem
  rw [lowDigits, lowDigits] at h
  obtain ⟨h, hsecond⟩ := List.append_inj' h (by simp)
  obtain ⟨h, hminute⟩ := List.append_inj' h (by simp)
  obtain ⟨h, hhour⟩ := List.append_inj' h (by simp)
  obtain ⟨hmonth, hday⟩ := List.append_inj' h (by simp)
  exact ext_places hyear (digits_inj (by omega) (by omega) hmonth)
    (digits_inj (by omega) (by omega) hday) (digits_inj (by omega) (by omega) hhour)
    (digits_inj (by omega) (by omega) hminute) (digits_inj (by omega) (by omega) hsecond)

/-- The sign is what stands in front of the first digit. -/
theorem yearSign_eq_takeWhile (rest : List Char) :
    yearSign t.year = (t.stamp.toList ++ rest).takeWhile (!·.isDigit) := by
  rw [toList_stamp_sign, List.append_assoc]
  have hsign : ∀ c ∈ yearSign t.year, (!c.isDigit) = true := by
    intro c hc
    rcases mem_yearSign hc with rfl | rfl <;> rfl
  rw [List.takeWhile_append_of_pos hsign]
  cases hds : t.stampDigits with
  | nil => exact absurd hds t.stampDigits_ne_nil
  | cons d ds =>
      have hd : d.isDigit = true := t.isDigit_of_mem_stampDigits (hds ▸ List.mem_cons_self)
      rw [List.cons_append, List.takeWhile_cons_of_neg (by simp [hd]), List.append_nil]

/-- **Stamps tell moments apart**, whatever text without a digit in front follows them. -/
theorem eq_of_stamp_append {rest rest' : List Char} {c c' : Char} (hc : c.isDigit = false)
    (hc' : c'.isDigit = false) (h : t.stamp.toList ++ c :: rest = u.stamp.toList ++ c' :: rest') :
    t = u := by
  have hsign : yearSign t.year = yearSign u.year := by
    rw [yearSign_eq_takeWhile (c :: rest), yearSign_eq_takeWhile (c' :: rest'), h]
  rw [toList_stamp_sign, toList_stamp_sign, hsign, List.append_assoc, List.append_assoc] at h
  -- behind equal signs the digits of both end where the text begins
  have hdigits := digits_of_append (fun _ => t.isDigit_of_mem_stampDigits)
    (fun _ => u.isDigit_of_mem_stampDigits) hc hc' (List.append_cancel_left h)
  obtain ⟨habs, hlow⟩ := stampDigits_inj hdigits
  exact eq_of_lowDigits (year_eq hsign habs) hlow

variable (t) in
/-- A stamp is made of digits and signs. -/
theorem of_mem_stamp {c : Char} (h : c ∈ t.stamp.toList) :
    c.isDigit = true ∨ c = '-' ∨ c = '+' := by
  rw [toList_stamp_sign] at h
  rcases List.mem_append.mp h with h | h
  · exact Or.inr (mem_yearSign h)
  · exact Or.inl (t.isDigit_of_mem_stampDigits h)

variable (t) in
theorem slash_notMem_stamp : '/' ∉ t.stamp.toList := by
  intro h
  rcases t.of_mem_stamp h with h | h | h <;> exact nomatch h

variable (t) in
theorem stamp_ne_nil : t.stamp.toList ≠ [] := by
  rw [toList_stamp_sign]
  intro h
  exact t.stampDigits_ne_nil (List.append_eq_nil_iff.mp h).2

end Moment

end Scaffold
