import Mathlib
import Scaffold.Proofs.Calendar.Order
import Scaffold.Proofs.Text.ByteOrder

/-!
# Stamps in byte order

  The stamp of a moment writes its places with a fixed number of digits each,
  the largest place first. Numbers of a fixed width are in byte order when they
  are in order as numbers, so stamps of the years that four digits hold are in
  byte order when their moments are in the order of time.
-/

namespace Scaffold

open Text

/-! ## Numbers of a fixed width -/

/-- The last `width` digits of a number. -/
def digits : Nat → Nat → List Char
  | 0, _ => []
  | width + 1, n => digits width (n / 10) ++ [Nat.digitChar (n % 10)]

@[simp] theorem length_digits (width n : Nat) : (digits width n).length = width := by
  induction width generalizing n with
  | zero => rfl
  | succ width ih => simp [digits, ih]

theorem isDigit_of_mem_digits {width n : Nat} {c : Char} (h : c ∈ digits width n) :
    c.isDigit = true := by
  induction width generalizing n with
  | zero => exact nomatch h
  | succ width ih =>
      rcases List.mem_append.mp h with hfront | hlast
      · exact ih hfront
      · rw [List.mem_singleton.mp hlast, Nat.isDigit_digitChar, decide_eq_true_iff]
        exact Nat.mod_lt n (by decide)

theorem digits_zero (width : Nat) : digits width 0 = List.replicate width '0' := by
  induction width with
  | zero => rfl
  | succ width ih => rw [digits, Nat.zero_div, ih, List.replicate_succ']; rfl

/-- A number that the width holds is written with zeros in front. -/
theorem toList_padded {width n : Nat} (h : n < 10 ^ (width + 1)) :
    (Moment.padded (width + 1) n).toList = digits (width + 1) n := by
  rw [Moment.padded, String.toList_ofList]
  induction width generalizing n with
  | zero =>
      have hn : n < 10 := h
      rw [Nat.toDigits_of_lt_base hn, digits, digits, Nat.mod_eq_of_lt hn]
      rfl
  | succ width ih =>
      by_cases hn : n < 10
      · rw [Nat.toDigits_of_lt_base hn, digits, Nat.div_eq_of_lt hn, Nat.mod_eq_of_lt hn,
          digits_zero]
        rfl
      · have hlt : n / 10 < 10 ^ (width + 1) := by
          rw [Nat.div_lt_iff_lt_mul (by decide), ← Nat.pow_succ]
          exact h
        -- the last digit is split off; the zeros stay in front of the others
        rw [Nat.toDigits_of_base_le (by decide) (by omega), digits, ← ih hlt,
          List.length_append, ← List.append_assoc]
        simp

/-- The byte of a digit. -/
theorem utf8EncodeChar_digitChar {d : Nat} (h : d < 10) :
    String.utf8EncodeChar (Nat.digitChar d) = [UInt8.ofNat (48 + d)] := by
  have hall : ∀ d : Fin 10,
      String.utf8EncodeChar (Nat.digitChar d) = [UInt8.ofNat (48 + d)] := by decide
  exact hall ⟨d, h⟩

theorem digit_byte_lt_iff {d e : Nat} (hd : d < 10) (he : e < 10) :
    UInt8.ofNat (48 + d) < UInt8.ofNat (48 + e) ↔ d < e := by
  rw [UInt8.lt_iff_toNat_lt, UInt8.toNat_ofNat', UInt8.toNat_ofNat']
  omega

/-- The bytes of the last `width` digits of a number. -/
def digitBytes (width n : Nat) : List UInt8 := (digits width n).flatMap String.utf8EncodeChar

theorem digitBytes_succ (width n : Nat) :
    digitBytes (width + 1) n
      = digitBytes width (n / 10) ++ [UInt8.ofNat (48 + n % 10)] := by
  rw [digitBytes, digits, List.flatMap_append, List.flatMap_singleton,
    utf8EncodeChar_digitChar (Nat.mod_lt n (by decide))]
  rfl

@[simp] theorem length_digitBytes (width n : Nat) : (digitBytes width n).length = width := by
  induction width generalizing n with
  | zero => rfl
  | succ width ih => rw [digitBytes_succ, List.length_append, ih]; rfl

theorem div_ten_lt {width n : Nat} (h : n < 10 ^ (width + 1)) : n / 10 < 10 ^ width := by
  rw [Nat.div_lt_iff_lt_mul (by decide)]
  exact h

/-- The digits of a width tell the numbers apart that it holds. -/
theorem digitBytes_inj {width m n : Nat} (hm : m < 10 ^ width) (hn : n < 10 ^ width) :
    digitBytes width m = digitBytes width n ↔ m = n := by
  refine ⟨?_, fun h => by rw [h]⟩
  induction width generalizing m n with
  | zero => intro _; omega
  | succ width ih =>
      intro h
      rw [digitBytes_succ, digitBytes_succ] at h
      obtain ⟨hfront, hlast⟩ := List.append_inj h (by simp)
      have hdiv : m / 10 = n / 10 := ih (div_ten_lt hm) (div_ten_lt hn) hfront
      have hbyte := congrArg UInt8.toNat (List.cons.inj hlast).1
      rw [UInt8.toNat_ofNat', UInt8.toNat_ofNat'] at hbyte
      omega

/-- Numbers that one width holds are in byte order when they are in order. -/
theorem digitBytes_lex_iff {width m n : Nat} (hm : m < 10 ^ width) (hn : n < 10 ^ width) :
    List.Lex (· < ·) (digitBytes width m) (digitBytes width n) ↔ m < n := by
  induction width generalizing m n with
  | zero =>
      have hmn : ¬ m < n := by omega
      simp [digitBytes, digits, hmn]
  | succ width ih =>
      rw [digitBytes_succ, digitBytes_succ, lex_append_iff (by simp),
        ih (div_ten_lt hm) (div_ten_lt hn), digitBytes_inj (div_ten_lt hm) (div_ten_lt hn),
        List.cons_lex_cons_iff, digit_byte_lt_iff (Nat.mod_lt m (by decide))
          (Nat.mod_lt n (by decide))]
      simp only [List.not_lex_nil, and_false, or_false]
      omega

/-! ## Stamps -/

namespace Moment

/-- Four digits without a sign hold the year. -/
def HasPlainYear (t : Moment) : Prop := 0 ≤ t.year ∧ t.year ≤ 9999

instance (t : Moment) : Decidable t.HasPlainYear := inferInstanceAs (Decidable (_ ∧ _))

variable {s t : Moment}

theorem HasPlainYear.toNat_lt (h : t.HasPlainYear) : t.year.toNat < 10 ^ 4 := by
  have := h.1
  have := h.2
  omega

/-- The digits of a stamp, place by place. -/
theorem toList_stamp (h : t.HasPlainYear) :
    t.stamp.toList = digits 4 t.year.toNat ++ digits 2 t.month ++ digits 2 t.day ++
      digits 2 t.hour ++ digits 2 t.minute ++ digits 2 t.second := by
  have ht := t.places_mem
  rw [stamp, stampWith, yearText, if_pos (show 0 ≤ t.year ∧ t.year ≤ 9999 from h)]
  simp only [String.toList_append]
  rw [toList_padded h.toNat_lt, toList_padded (by omega), toList_padded (by omega),
    toList_padded (by omega), toList_padded (by omega), toList_padded (by omega)]

theorem bytes_stamp (h : t.HasPlainYear) :
    bytes t.stamp = digitBytes 4 t.year.toNat ++ (digitBytes 2 t.month ++ (digitBytes 2 t.day ++
      (digitBytes 2 t.hour ++ (digitBytes 2 t.minute ++ digitBytes 2 t.second)))) := by
  rw [← String.ofList_toList (s := t.stamp), bytes_ofList, toList_stamp h]
  simp only [List.flatMap_append, List.append_assoc, digitBytes]

/-- A stamp of a plain year consists of fourteen digits. -/
theorem stamp_digits (h : t.HasPlainYear) :
    t.stamp.length = 14 ∧ ∀ c ∈ t.stamp.toList, c.isDigit = true := by
  constructor
  · rw [← String.length_toList, toList_stamp h]
    simp
  · intro c hc
    rw [toList_stamp h] at hc
    simp only [List.mem_append, or_assoc] at hc
    rcases hc with hc | hc | hc | hc | hc | hc <;> exact isDigit_of_mem_digits hc

theorem length_bytes_stamp (h : t.HasPlainYear) : (bytes t.stamp).length = 14 := by
  rw [bytes_stamp h]
  simp

/-- Stamps of plain years are in byte order exactly when their moments are in order. -/
theorem stamp_precedes_iff (hs : s.HasPlainYear) (ht : t.HasPlainYear) :
    Precedes s.stamp t.stamp ↔ s < t := by
  have hsp := s.places_mem
  have htp := t.places_mem
  have hs0 := hs.1
  have ht0 := ht.1
  have hsy := hs.toNat_lt
  have hty := ht.toNat_lt
  rw [Precedes, bytes_stamp hs, bytes_stamp ht, lt_iff_rank_lt, rank_lt_rank_iff,
    lex_append_iff (by simp), lex_append_iff (by simp), lex_append_iff (by simp),
    lex_append_iff (by simp), lex_append_iff (by simp), digitBytes_lex_iff hsy hty,
    digitBytes_inj hsy hty]
  rw [digitBytes_lex_iff (by omega) (by omega), digitBytes_lex_iff (by omega) (by omega),
    digitBytes_lex_iff (by omega) (by omega), digitBytes_lex_iff (by omega) (by omega),
    digitBytes_lex_iff (by omega) (by omega), digitBytes_inj (by omega) (by omega),
    digitBytes_inj (by omega) (by omega), digitBytes_inj (by omega) (by omega),
    digitBytes_inj (by omega) (by omega)]
  have hlt : s.year.toNat < t.year.toNat ↔ s.year < t.year := by omega
  have heq : s.year.toNat = t.year.toNat ↔ s.year = t.year := by omega
  rw [hlt, heq]

end Moment

end Scaffold
