import Scaffold.Proofs.Text.Case

/-!
# Letter case across the border of ASCII

  A character beyond ASCII has little to do with ASCII in its other case. Its
  lower case holds a character beyond ASCII again, but for the Kelvin sign,
  which becomes a `k`. Its upper case ends in a character beyond ASCII again, but
  for eleven characters that are spelled out: the ligatures, the long and the
  sharp s, the dotless i and the n with an apostrophe.
-/

namespace Scaffold.Text

/-! ## Within ASCII -/

variable {c : Char}

theorem isAscii_toUpper (h : isAscii c = true) : isAscii c.toUpper = true :=
  forall_ascii (p := fun c => isAscii c.toUpper) (by decide) h

theorem isUpper_toUpper (h : isAscii c = true) (hlower : c.toLower.isLower = true) :
    isUpper c.toUpper = true := by
  have hall := forall_ascii (p := fun c => !c.toLower.isLower || isUpper c.toUpper) (by decide) h
  rw [hlower] at hall
  exact hall

theorem toUpper_ne_underscore (h : isAscii c = true) (hc : c ≠ '_') : c.toUpper ≠ '_' := by
  have hall := forall_ascii (p := fun c => c == '_' || c.toUpper != '_') (by decide) h
  simpa [hc] using hall

theorem toLower_of_not_isAscii (h : isAscii c = false) : c.toLower = c := by
  refine Char.toLower_eq_of_not_isUpper fun hupper => ?_
  have hcode := (isUpper_iff.mp hupper).2
  have := of_decide_eq_false h
  omega

/-- A character is in lower case, or the upper case of its lower case. -/
theorem eq_toLower_or (c : Char) : c = c.toLower ∨ c = c.toLower.toUpper := by
  cases h : isAscii c with
  | false => exact Or.inl (toLower_of_not_isAscii h).symm
  | true =>
      have hall := forall_ascii (p := fun c => c == c.toLower || c == c.toLower.toUpper)
        (by decide) h
      simpa using hall

/-- The spellings of a word of small letters, each letter in either case. -/
def spellings : List Char → List (List Char)
  | [] => [[]]
  | c :: cs => [c, c.toUpper].flatMap fun d => (spellings cs).map (d :: ·)

/-- A word is among the spellings of its lower case. -/
theorem mem_spellings (cs : List Char) : cs ∈ spellings (cs.map Char.toLower) := by
  induction cs with
  | nil => exact List.mem_singleton_self []
  | cons c cs ih =>
      have hc : c ∈ [c.toLower, c.toLower.toUpper] := by simpa using eq_toLower_or c
      exact List.mem_flatMap.mpr ⟨c, hc, List.mem_map_of_mem ih⟩

/-! ## Lower case -/

/-- The run is moved to characters beyond ASCII. -/
def CaseRun.movesBeyond (r : CaseRun) : Bool := r.movesWithin && Nat.ble 128 (r.target r.first)

theorem CaseRun.not_isAscii_target {r : CaseRun} (hr : r.movesBeyond = true) {n : Nat}
    (h : r.Holds n) : isAscii (Char.ofNat (r.target n)) = false := by
  obtain ⟨hwithin, hbeyond⟩ := Bool.and_eq_true_iff.mp hr
  obtain ⟨htarget, -, hvalid⟩ := target_mem hwithin h
  have hbeyond := Nat.le_of_ble_eq_true hbeyond
  rw [isAscii, toNat_ofNat hvalid, decide_eq_false_iff_not]
  omega

/-- The run holds one code only. -/
def CaseRun.isSingle (r : CaseRun) : Bool := Nat.beq r.first r.last

theorem CaseRun.Holds.eq_first {r : CaseRun} {n : Nat} (h : r.Holds n) (hr : r.isSingle = true) :
    n = r.first := by
  have hlast := Nat.eq_of_beq_eq_true hr
  obtain ⟨hle, hge, -⟩ := h
  omega

/-- The Kelvin sign. -/
def kelvin : Char := Char.ofNat 0x212A

/-- Lower cases of one character are beyond ASCII, unless the character is the Kelvin sign. -/
theorem lower_movesBeyond :
    (CaseTable.lower.all fun r => r.movesBeyond ||
      r.isSingle && Char.ofNat r.first == kelvin) = true := by
  decide +kernel

/-- The lower case of a character beyond ASCII is the one with a dot above, or one character beyond
    ASCII, or a `k`. -/
theorem lowerOf_of_not_isAscii (h : isAscii c = false) :
    lowerOf c = ['i', Char.ofNat 0x307] ∨ ∃ d, lowerOf c = [d] ∧ (isAscii d = false ∨ d = 'k') := by
  rcases lowerOf_cases h with rfl | ⟨r, hr, hholds, htarget⟩ | hself
  · exact Or.inl (by decide)
  · refine Or.inr ⟨_, htarget, ?_⟩
    rcases Bool.or_eq_true_iff.mp (List.all_eq_true.mp lower_movesBeyond r hr) with hbeyond | hkelvin
    · exact Or.inl (CaseRun.not_isAscii_target hbeyond hholds)
    · -- the one run that leads into ASCII holds the Kelvin sign alone
      refine Or.inr ?_
      obtain ⟨hsingle, hfirst⟩ := Bool.and_eq_true_iff.mp hkelvin
      have hc : c = kelvin := by
        rw [← beq_iff_eq.mp hfirst, ← hholds.eq_first hsingle, Char.ofNat_toNat]
      have hk : lowerOf kelvin = ['k'] := by decide
      rw [hc] at htarget
      exact List.singleton_inj.mp (hc ▸ htarget.symm.trans hk)
  · exact Or.inr ⟨c, hself, Or.inl h⟩

/-- The lower case of a character beyond ASCII holds one that is beyond ASCII, or it is a `k`. -/
theorem exists_mem_lowerOf (h : isAscii c = false) :
    ∃ d ∈ lowerOf c, isAscii d = false ∨ d = 'k' := by
  rcases lowerOf_of_not_isAscii h with hdotted | ⟨d, hd, hor⟩
  · refine ⟨Char.ofNat 0x307, ?_, Or.inl (by decide)⟩
    rw [hdotted]
    exact List.mem_cons_of_mem _ (List.mem_singleton_self _)
  · exact ⟨d, hd ▸ List.mem_singleton_self d, hor⟩

/-- A character of ASCII comes into a lower case as a small letter, or it is that character
    already. -/
theorem eq_of_mem_lowerOf {d : Char} (hd : d ∈ lowerOf c) (hascii : isAscii d = true)
    (hletter : d.isLower = false) : d = c := by
  cases h : isAscii c with
  | true =>
      have hall := forall_ascii (p := fun c => c.toLower == c || c.toLower.isLower) (by decide) h
      rw [lowerOf_ascii h, List.mem_singleton] at hd
      rw [← hd, hletter, Bool.or_false] at hall
      exact beq_iff_eq.mp hall
  | false =>
      rcases lowerOf_of_not_isAscii h with hdotted | ⟨e, he, hor⟩
      · rw [hdotted] at hd
        simp only [List.mem_cons, List.not_mem_nil, or_false] at hd
        rcases hd with rfl | rfl
        · exact absurd hletter (by decide)
        · exact absurd hascii (by decide)
      · obtain rfl : d = e := List.mem_singleton.mp (he ▸ hd)
        rcases hor with hforeign | rfl
        · exact nomatch hascii.symm.trans hforeign
        · exact absurd hletter (by decide)

/-! ## Upper case -/

/-- The characters beyond ASCII whose upper case ends in ASCII. -/
def spelledOut : List Char := ['ß', 'ı', 'ŉ', 'ſ', 'ﬀ', 'ﬁ', 'ﬂ', 'ﬃ', 'ﬄ', 'ﬅ', 'ﬆ']

/-- Upper cases of one character are beyond ASCII, unless the character is spelled out. -/
theorem upper_movesBeyond :
    (CaseTable.upper.all fun r => r.movesBeyond ||
      r.isSingle && spelledOut.contains (Char.ofNat r.first)) = true := by
  decide +kernel

/-- Upper cases of several characters end beyond ASCII, unless the character is spelled out. -/
theorem upperExpansions_movesBeyond :
    (CaseTable.upperExpansions.all fun p =>
      (p.2.map Char.ofNat).getLast?.any (fun d => !isAscii d) ||
        spelledOut.contains (Char.ofNat p.1)) = true := by
  decide +kernel

/-- The upper case of a character beyond ASCII ends beyond ASCII, unless it is spelled out. -/
theorem upperOf_ends (h : isAscii c = false) (hc : c ∉ spelledOut) :
    ∃ front d, upperOf c = front ++ [d] ∧ isAscii d = false := by
  have hsingle : ∀ {d : Char}, isAscii d = false →
      ∃ front e, [d] = front ++ [e] ∧ isAscii e = false := fun {d} hd => ⟨[], d, rfl, hd⟩
  rw [upperOf, h]
  -- the upper case is looked up among the expansions first, and then among the runs
  cases hexpand : expandIn CaseTable.upperExpansions c with
  | some cs =>
      obtain ⟨codes, hcodes, rfl⟩ := Option.map_eq_some_iff.mp hexpand
      obtain ⟨before, after, htable, -⟩ := List.lookup_eq_some_iff.mp hcodes
      have hall := List.all_eq_true.mp upperExpansions_movesBeyond (c.toNat, codes)
        (htable ▸ List.mem_append_right before List.mem_cons_self)
      rcases Bool.or_eq_true_iff.mp hall with hend | hspelled
      · obtain ⟨d, hlast, hd⟩ := (Option.any_eq_true _ _).mp hend
        obtain ⟨front, hfront⟩ := List.getLast?_eq_some_iff.mp hlast
        exact ⟨front, d, hfront, by simpa using hd⟩
      · rw [Char.ofNat_toNat] at hspelled
        exact absurd (List.contains_iff_mem.mp hspelled) hc
  | none =>
      cases hshift : shiftIn CaseTable.upper c with
      | none => exact hsingle h
      | some d =>
          obtain ⟨r, hr, hholds, rfl⟩ := shiftIn_eq_some hshift
          rcases Bool.or_eq_true_iff.mp (List.all_eq_true.mp upper_movesBeyond r hr) with
            hbeyond | hspelled
          · exact hsingle (CaseRun.not_isAscii_target hbeyond hholds)
          · obtain ⟨hone, hmem⟩ := Bool.and_eq_true_iff.mp hspelled
            rw [← hholds.eq_first hone, Char.ofNat_toNat] at hmem
            exact absurd (List.contains_iff_mem.mp hmem) hc

end Scaffold.Text
