import Mathlib
import Scaffold.Naming.Casing

/-!
# Lower case is settled

  The first character of a lower case is its own lower case, so a text whose
  first letter has been lowered once is not changed by doing it again. The
  tables move runs of characters, which makes this a matter of pairs of runs:
  where one run is moved to, no other run may hold a character. Runs that
  overlap can only keep apart by parity, since many of them hold every other
  character.
-/

namespace Scaffold.Text

/-! ## Runs -/

namespace CaseRun

/-- The run holds the code. -/
def Holds (r : CaseRun) (n : Nat) : Prop :=
  r.first ≤ n ∧ n ≤ r.last ∧ (n - r.first) % r.stride = 0

/-- Where a code of the run is moved to. -/
def target (r : CaseRun) (n : Nat) : Nat := ((n : Int) + r.shift).toNat

/-- All codes of the run have the parity of the first. -/
def keepsParity (r : CaseRun) : Bool := Nat.beq r.stride 2 || Nat.beq r.first r.last

/-- The run is moved to where the run `q` holds no code. -/
def movesApart (r q : CaseRun) : Bool :=
  Nat.blt (r.target r.last) q.first || Nat.blt q.last (r.target r.first) ||
    (r.keepsParity && q.keepsParity && Nat.beq ((r.target r.first + q.first) % 2) 1)

/-- The run is moved among the codes of characters, and not across their beginning. -/
def movesWithin (r : CaseRun) : Bool :=
  decide (0 ≤ (r.first : Int) + r.shift) &&
    (Nat.blt (r.target r.last) 0xD800 ||
      Nat.blt 0xDFFF (r.target r.first) && Nat.blt (r.target r.last) 0x110000)

variable {r q : CaseRun} {n : Nat}

theorem Holds.mod_two (h : r.Holds n) (hr : r.keepsParity = true) : (n - r.first) % 2 = 0 := by
  obtain ⟨hfirst, hlast, hstride⟩ := h
  rcases Bool.or_eq_true_iff.mp hr with hr | hr
  · rw [Nat.eq_of_beq_eq_true hr] at hstride
    exact hstride
  · have heq := Nat.eq_of_beq_eq_true hr
    omega

theorem target_mem (hr : r.movesWithin = true) (h : r.Holds n) :
    r.target n = r.target r.first + (n - r.first) ∧ r.target n ≤ r.target r.last ∧
      (r.target n).isValidChar := by
  obtain ⟨hfirst, hlast, -⟩ := h
  obtain ⟨hzero, hrange⟩ := Bool.and_eq_true_iff.mp hr
  have hzero := of_decide_eq_true hzero
  have hn : r.target n = r.target r.first + (n - r.first) ∧ r.target n ≤ r.target r.last := by
    simp only [target]
    omega
  refine ⟨hn.1, hn.2, ?_⟩
  simp only [Bool.or_eq_true, Bool.and_eq_true, Nat.blt_eq] at hrange
  show r.target n < 0xD800 ∨ 0xDFFF < r.target n ∧ r.target n < 0x110000
  omega

/-- Where a run moves apart from another, no code of it is moved into the other. -/
theorem not_holds_target (hr : r.movesWithin = true) (hrq : r.movesApart q = true)
    (h : r.Holds n) : ¬ q.Holds (r.target n) := by
  intro hq
  obtain ⟨htarget, hle, -⟩ := target_mem hr h
  simp only [movesApart, Bool.or_eq_true, Bool.and_eq_true, Nat.blt_eq] at hrq
  rcases hrq with (hbelow | habove) | ⟨⟨hr2, hq2⟩, hodd⟩
  · have := hq.1
    omega
  · have := hq.2.1
    omega
  · have hodd := Nat.eq_of_beq_eq_true hodd
    have hr2 := h.mod_two hr2
    have hq2 := hq.mod_two hq2
    have := hq.1
    omega

end CaseRun

theorem toNat_ofNat {n : Nat} (h : n.isValidChar) : (Char.ofNat n).toNat = n := by
  rw [Char.ofNat, dif_pos h]
  rfl

theorem shiftIn_eq_some {runs : List CaseRun} {c d : Char} (h : shiftIn runs c = some d) :
    ∃ r ∈ runs, r.Holds c.toNat ∧ d = Char.ofNat (r.target c.toNat) := by
  obtain ⟨r, hr, rfl⟩ := Option.map_eq_some_iff.mp h
  refine ⟨r, List.mem_of_find?_eq_some hr, ?_, rfl⟩
  simpa [CaseRun.Holds, and_assoc] using List.find?_some hr

theorem shiftIn_eq_none {runs : List CaseRun} {c : Char} (h : ∀ r ∈ runs, ¬ r.Holds c.toNat) :
    shiftIn runs c = none := by
  refine Option.map_eq_none_iff.mpr (List.find?_eq_none.mpr fun r hr hholds => h r hr ?_)
  simpa [CaseRun.Holds, and_assoc] using hholds

/-! ## Lower case -/

/-- The one character whose lower case takes two. -/
def dottedRun : CaseRun := ⟨0x130, 0x130, 1, 0⟩

/-- The run is moved to characters that are their own lower case. -/
def settles (r : CaseRun) : Bool :=
  r.movesWithin &&
    (Nat.blt (r.target r.last) 0x41 ||
      Nat.blt 0x5A (r.target r.first) && (dottedRun :: CaseTable.lower).all r.movesApart)

theorem lower_settles : CaseTable.lower.all settles = true := by decide +kernel

theorem lowerOf_ascii_settled {c : Char} (h : isAscii c.toLower = true) :
    lowerOf c.toLower = [c.toLower] := by
  rw [lowerOf_ascii h, Char.toLower_toLower_eq_toLower]

/-- What holds of all characters in ASCII holds of each. -/
theorem forall_ascii {p : Char → Bool} (h : (List.range 128).all (fun n => p (Char.ofNat n)) = true)
    {c : Char} (hc : isAscii c = true) : p c = true := by
  have hcode := List.all_eq_true.mp h c.toNat (List.mem_range.mpr (of_decide_eq_true hc))
  rwa [Char.ofNat_toNat] at hcode

theorem isAscii_toLower {c : Char} (h : isAscii c = true) : isAscii c.toLower = true :=
  forall_ascii (p := fun c => isAscii c.toLower) (by decide) h

theorem isUpper_iff {c : Char} : c.isUpper = true ↔ 0x41 ≤ c.toNat ∧ c.toNat ≤ 0x5A := by
  simp [Char.isUpper, UInt32.le_iff_toNat_le]

/-- Where a run of the lower case is moved to, the characters are their own lower case. -/
theorem lowerOf_target {r : CaseRun} (hr : r ∈ CaseTable.lower) {n : Nat} (hn : r.Holds n) :
    lowerOf (Char.ofNat (r.target n)) = [Char.ofNat (r.target n)] := by
  obtain ⟨hwithin, hsettled⟩ := Bool.and_eq_true_iff.mp (List.all_eq_true.mp lower_settles r hr)
  obtain ⟨htarget, hle, hvalid⟩ := CaseRun.target_mem hwithin hn
  simp only [Bool.or_eq_true, Bool.and_eq_true, Nat.blt_eq, List.all_eq_true] at hsettled
  -- behind the capitals of ASCII, no run of the table moves the character once more
  have hapart : ∀ q ∈ dottedRun :: CaseTable.lower, 0x5A < r.target n → ¬ q.Holds (r.target n) := by
    intro q hq hcode
    rcases hsettled with hlow | ⟨-, hall⟩
    · omega
    · exact CaseRun.not_holds_target hwithin (hall q hq) hn
  have hcode := toNat_ofNat hvalid
  generalize Char.ofNat (r.target n) = d at hcode
  rw [← hcode] at hapart hle htarget
  cases hascii : isAscii d with
  | true =>
      rw [lowerOf_ascii hascii, Char.toLower_eq_of_not_isUpper]
      rw [isUpper_iff]
      omega
  | false =>
      have hlarge : 0x5A < d.toNat := by
        have := of_decide_eq_false hascii
        omega
      have hdotted : d.toNat ≠ 0x130 := by
        intro heq
        refine hapart dottedRun List.mem_cons_self hlarge ?_
        rw [heq]
        exact ⟨by decide, by decide, by decide⟩
      have hexpand : expandIn CaseTable.lowerExpansions d = none := by
        simp [expandIn, CaseTable.lowerExpansions, hdotted]
      have hshift := shiftIn_eq_none fun q hq => hapart q (List.mem_cons_of_mem _ hq) hlarge
      rw [lowerOf, hascii, hexpand, hshift]
      rfl

/-- A character beyond ASCII is the dotted capital, or moved by a run, or its own lower case. -/
theorem lowerOf_cases {c : Char} (h : isAscii c = false) :
    c = 'İ' ∨ (∃ r ∈ CaseTable.lower, r.Holds c.toNat ∧
      lowerOf c = [Char.ofNat (r.target c.toNat)]) ∨ lowerOf c = [c] := by
  by_cases hdotted : c.toNat = 0x130
  · refine Or.inl ?_
    rw [← Char.ofNat_toNat c, hdotted]
  · have hexpand : expandIn CaseTable.lowerExpansions c = none := by
      simp [expandIn, CaseTable.lowerExpansions, hdotted]
    rw [lowerOf, h, hexpand]
    cases hshift : shiftIn CaseTable.lower c with
    | none => exact Or.inr (Or.inr rfl)
    | some d =>
        obtain ⟨r, hr, hholds, rfl⟩ := shiftIn_eq_some hshift
        exact Or.inr (Or.inl ⟨r, hr, hholds, rfl⟩)

/-- The first character of a lower case is its own lower case. -/
theorem lowerOf_settled {c d : Char} {ds : List Char} (h : lowerOf c = d :: ds) :
    lowerOf d = [d] := by
  cases hascii : isAscii c with
  | true =>
      rw [lowerOf_ascii hascii] at h
      rw [← (List.cons.inj h).1]
      exact lowerOf_ascii_settled (isAscii_toLower hascii)
  | false =>
      rcases lowerOf_cases hascii with rfl | ⟨r, hr, hholds, htarget⟩ | hself
      · have hd : d = 'i' := (List.cons.inj h).1.symm
        rw [hd]
        rfl
      · rw [htarget] at h
        rw [← (List.cons.inj h).1]
        exact lowerOf_target hr hholds
      · rw [hself] at h
        rw [← (List.cons.inj h).1]
        exact hself

theorem lowerOf_ne_nil (c : Char) : lowerOf c ≠ [] := by
  cases hascii : isAscii c with
  | true =>
      rw [lowerOf_ascii hascii]
      exact List.cons_ne_nil _ _
  | false =>
      rcases lowerOf_cases hascii with rfl | ⟨r, -, -, htarget⟩ | hself
      · decide
      · rw [htarget]
        exact List.cons_ne_nil _ _
      · rw [hself]
        exact List.cons_ne_nil _ _

end Scaffold.Text

namespace Scaffold.Naming

open Text

/-- A name whose first letter has been lowered stays as it is. -/
theorem uncapitalizeChars_idem (cs : List Char) :
    uncapitalizeChars (uncapitalizeChars cs) = uncapitalizeChars cs := by
  cases cs with
  | nil => rfl
  | cons c cs =>
      cases h : lowerOf c with
      | nil => exact absurd h (lowerOf_ne_nil c)
      | cons d ds =>
          rw [uncapitalizeChars, h, List.cons_append, uncapitalizeChars, lowerOf_settled h]
          rfl

theorem uncapitalize_idem (name : String) :
    uncapitalize (uncapitalize name) = uncapitalize name := by
  rw [uncapitalize, toList_uncapitalize, uncapitalizeChars_idem]
  rfl

theorem uncapitalize_ne_empty {name : String} (h : name ≠ "") : uncapitalize name ≠ "" := by
  rw [ne_eq, ← String.toList_eq_nil_iff, toList_uncapitalize]
  cases hname : name.toList with
  | nil => exact absurd (String.toList_eq_nil_iff.mp hname) h
  | cons c cs =>
      intro hnil
      exact lowerOf_ne_nil c (List.append_eq_nil_iff.mp hnil).1

end Scaffold.Naming
