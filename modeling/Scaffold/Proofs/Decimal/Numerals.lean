import Mathlib
import Scaffold.Decimal.Double

/-!
# Numerals

  Which texts are read as numbers can be told without reading them: a whole number
  is a sign, which may be absent, and digits, and a double has a point among its
  digits or an exponent behind them besides, or it is one of three names. Of the
  many texts of a whole number one is written, and it is read back.
-/

namespace Scaffold.Decimal

variable {cs rest : List Char}

/-! ## Parts of numerals -/

/-- Nothing but decimal digits. -/
def AllDigits (cs : List Char) : Prop := ∀ c ∈ cs, c.isDigit = true

/-- The signs, and nothing in place of one. -/
def signs : List (List Char) := [[], ['-'], ['+']]

/-- A whole number, which may have a sign. -/
def IsWhole (cs : List Char) : Prop :=
  ∃ sign ∈ signs, ∃ digits, AllDigits digits ∧ digits ≠ [] ∧ cs = sign ++ digits

/-- A power of ten as a factor, or nothing in place of it. -/
inductive IsExponent : List Char → Prop where
  | absent : IsExponent []
  | power {e : Char} {cs : List Char} (letter : e = 'e' ∨ e = 'E') (whole : IsWhole cs) :
      IsExponent (e :: cs)

/-- What doubles without digits are called. -/
def names : List String := ["inf", "infinity", "nan"]

/-- What a numeral has behind its sign. -/
inductive IsUnsigned : List Char → Prop where
  | name {cs : List Char} (known : String.ofList (cs.map Char.toLower) ∈ names) : IsUnsigned cs
  | whole {digits exponent : List Char} (all : AllDigits digits) (nonempty : digits ≠ [])
      (power : IsExponent exponent) : IsUnsigned (digits ++ exponent)
  | fraction {whole fraction exponent : List Char} (before : AllDigits whole)
      (behind : AllDigits fraction) (nonempty : whole ++ fraction ≠ [])
      (power : IsExponent exponent) : IsUnsigned (whole ++ '.' :: (fraction ++ exponent))

/-- A text that tells a number. -/
def IsNumeral (cs : List Char) : Prop :=
  ∃ sign ∈ signs, ∃ body, IsUnsigned body ∧ cs = sign ++ body

/-! ## Signs -/

/-- The text begins with no sign. -/
def NoSignInFront (cs : List Char) : Prop := ∀ c ∈ cs.head?, c ≠ '-' ∧ c ≠ '+'

theorem signed_append {sign : List Char} (hsign : sign ∈ signs) (hcs : NoSignInFront cs) :
    signed (sign ++ cs) = (sign == ['-'], cs) := by
  simp only [signs, List.mem_cons, List.not_mem_nil, or_false] at hsign
  rcases hsign with rfl | rfl | rfl
  · cases cs with
    | nil => rfl
    | cons c cs =>
        obtain ⟨hminus, hplus⟩ := hcs c rfl
        rw [List.nil_append, signed.eq_3 _ (by simpa using hminus) (by simpa using hplus)]
        rfl
  · rfl
  · rfl

theorem exists_sign (cs : List Char) :
    ∃ sign ∈ signs, cs = sign ++ (signed cs).2 ∧ (signed cs).1 = (sign == ['-']) := by
  rw [signed.eq_def]
  split
  · exact ⟨['-'], by decide, rfl, rfl⟩
  · exact ⟨['+'], by decide, rfl, rfl⟩
  · exact ⟨[], by decide, rfl, rfl⟩

/-! ## Digits -/

theorem AllDigits.noSignInFront {digits : List Char} (h : AllDigits digits) (hne : digits ≠ [])
    (rest : List Char) : NoSignInFront (digits ++ rest) := by
  obtain ⟨d, ds, rfl⟩ := List.exists_cons_of_ne_nil hne
  intro c hc
  obtain rfl : d = c := Option.some.inj hc
  have hd := h d List.mem_cons_self
  constructor
  · rintro rfl
    exact absurd hd (by decide)
  · rintro rfl
    exact absurd hd (by decide)

/-- The digits end where something else follows. -/
theorem spanDigits_append {digits : List Char} (h : AllDigits digits)
    (hrest : ∀ c ∈ rest.head?, c.isDigit = false) :
    spanDigits (digits ++ rest) = (digits.map digitValue, rest) := by
  have htake : rest.takeWhile Char.isDigit = [] := by
    cases rest with
    | nil => rfl
    | cons c rest => rw [List.takeWhile_cons, hrest c rfl, if_neg Bool.false_ne_true]
  have hdrop : rest.dropWhile Char.isDigit = rest := by
    cases rest with
    | nil => rfl
    | cons c rest => rw [List.dropWhile_cons, hrest c rfl, if_neg Bool.false_ne_true]
  rw [spanDigits, List.takeWhile_append_of_pos h, List.dropWhile_append_of_pos h, htake, hdrop,
    List.append_nil]

theorem exists_digits (cs : List Char) : ∃ digits, AllDigits digits ∧
    cs = digits ++ (spanDigits cs).2 ∧ (spanDigits cs).1 = digits.map digitValue := by
  refine ⟨cs.takeWhile Char.isDigit, fun c hc => ?_, ?_, rfl⟩
  · exact List.mem_takeWhile_imp hc
  · exact List.takeWhile_append_dropWhile.symm

/-! ## Whole numbers -/

theorem integer?_append {sign digits : List Char} (hsign : sign ∈ signs) (h : AllDigits digits)
    (hne : digits ≠ []) : integer? (sign ++ digits) =
      some (withSign (sign == ['-']) (ofDigits (digits.map digitValue))) := by
  have hfront := h.noSignInFront hne []
  have hspan : spanDigits (digits ++ []) = (digits.map digitValue, []) := spanDigits_append h nofun
  rw [List.append_nil] at hfront hspan
  obtain ⟨d, ds, rfl⟩ := List.exists_cons_of_ne_nil hne
  rw [integer?, signed_append hsign hfront]
  simp only [hspan, List.map_cons]

theorem isSome_integer?_iff (cs : List Char) : (integer? cs).isSome = true ↔ IsWhole cs := by
  constructor
  · intro h
    obtain ⟨sign, hsign, hcs, -⟩ := exists_sign cs
    obtain ⟨digits, hdigits, hrest, hvalues⟩ := exists_digits (signed cs).2
    rw [integer?] at h
    cases hspan : spanDigits (signed cs).2 with
    | mk values rest =>
        rw [hspan] at hrest hvalues
        simp only [hspan] at h
        cases values with
        | nil => exact nomatch h
        | cons value values =>
            cases rest with
            | cons c rest => exact nomatch h
            | nil =>
                rw [List.append_nil] at hrest
                refine ⟨sign, hsign, digits, hdigits, ?_, by rw [← hrest]; exact hcs⟩
                rintro rfl
                exact nomatch hvalues
  · rintro ⟨sign, hsign, digits, hdigits, hne, rfl⟩
    rw [integer?_append hsign hdigits hne]
    rfl

/-- Digits are read as they are written. -/
theorem ofDigits_toDigits (n : Nat) : ofDigits ((Nat.toDigits 10 n).map digitValue) = n := by
  have hread : ∀ (ds : List Char) (init : Nat),
      (ds.map digitValue).foldl (fun n d => n * 10 + d) init = Nat.ofDigitChars 10 ds init := by
    intro ds
    induction ds with
    | nil => exact fun _ => rfl
    | cons d ds ih =>
        intro init
        rw [List.map_cons, List.foldl_cons, ih, Nat.ofDigitChars_cons, Nat.mul_comm]
        rfl
  rw [ofDigits, hread, Nat.ofDigitChars_toDigits (by decide) (by decide)]

theorem allDigits_toDigits (n : Nat) : AllDigits (Nat.toDigits 10 n) :=
  fun _ h => Nat.isDigit_of_mem_toDigits (by decide) (by decide) h

/-- The text of a whole number has a sign exactly if the number is negative. -/
theorem toList_toString (i : Int) :
    (toString i).toList = (if i < 0 then ['-'] else []) ++ Nat.toDigits 10 i.natAbs := by
  cases i with
  | ofNat n =>
      have hnonneg : ¬ Int.ofNat n < 0 := Int.not_lt.mpr (Int.natCast_nonneg n)
      rw [if_neg hnonneg]
      show (Nat.repr n).toList = _
      rw [Nat.repr, String.toList_ofList]
      rfl
  | negSucc n =>
      rw [if_pos (Int.negSucc_lt_zero n)]
      show ("-" ++ String.ofList (Nat.toDigits 10 (n + 1))).toList = _
      rw [String.toList_append]
      exact congrArg ('-' :: ·) String.toList_ofList

/-- A whole number is read back from its text. -/
theorem integer?_toString (i : Int) : integer? (toString i).toList = some i := by
  have hne : Nat.toDigits 10 i.natAbs ≠ [] := Nat.toDigits_ne_nil
  rw [toList_toString]
  split
  · rename_i hneg
    rw [integer?_append (by decide) (allDigits_toDigits _) hne, ofDigits_toDigits]
    show some (-(i.natAbs : Int)) = some i
    congr 1
    omega
  · rename_i hneg
    rw [integer?_append (by decide) (allDigits_toDigits _) hne, ofDigits_toDigits]
    show some (i.natAbs : Int) = some i
    congr 1
    omega

/-! ## Doubles -/

theorem isSome_exponent?_iff (cs : List Char) :
    (Double.exponent? cs).isSome = true ↔ IsExponent cs := by
  cases cs with
  | nil => exact iff_of_true rfl .absent
  | cons e cs =>
      rw [Double.exponent?]
      constructor
      · intro h
        split at h
        · rename_i hletter
          exact .power (by simpa using hletter) ((isSome_integer?_iff cs).mp h)
        · exact nomatch h
      · intro h
        cases h with
        | power letter whole =>
            rw [if_pos (by simpa using letter)]
            exact (isSome_integer?_iff cs).mpr whole

/-- An exponent follows digits, and nothing of it is taken for one of them. -/
theorem IsExponent.head_not_digit (h : IsExponent cs) : ∀ c ∈ cs.head?, c.isDigit = false := by
  cases h with
  | absent => exact nofun
  | power letter whole =>
      rintro c hc
      obtain rfl := Option.some.inj hc
      rcases letter with rfl | rfl <;> rfl

/-- The digits behind a point, if there is one, and what follows them. -/
def behindPoint : List Char → List Nat × List Char
  | '.' :: cs => spanDigits cs
  | cs => ([], cs)

theorem behindPoint_cases (rest : List Char) :
    (∃ cs, rest = '.' :: cs ∧ behindPoint rest = spanDigits cs) ∨
      behindPoint rest = ([], rest) := by
  rw [behindPoint.eq_def]
  split
  · exact Or.inl ⟨_, rfl, rfl⟩
  · exact Or.inr rfl

theorem IsExponent.behindPoint (h : IsExponent cs) : behindPoint cs = ([], cs) := by
  cases h with
  | absent => rfl
  | power letter whole => rcases letter with rfl | rfl <;> rfl

theorem isSome_ite_map {α β : Type} (b : Bool) (o : Option α) (f : α → β) :
    (if b then none else o.map f).isSome = (!b && o.isSome) := by
  cases b with
  | true => rfl
  | false => exact Option.isSome_map

/-- Whether a double is read, with the digits in front of the point and those behind it. -/
theorem isSome_ofChars?_eq (cs : List Char) : (Double.ofChars? cs).isSome =
    (decide (String.ofList ((signed cs).2.map Char.toLower) ∈ names) ||
      (!((spanDigits (signed cs).2).1.isEmpty &&
          (behindPoint (spanDigits (signed cs).2).2).1.isEmpty) &&
        (Double.exponent? (behindPoint (spanDigits (signed cs).2).2).2).isSome)) := by
  rw [Double.ofChars?]
  simp only
  generalize String.ofList ((signed cs).2.map Char.toLower) = word
  split
  · rfl
  · rfl
  · rfl
  · rename_i hinf hinfinity hnan
    have hword : word ∉ names := by
      simp only [names, List.mem_cons, List.not_mem_nil, or_false]
      rintro (h | h | h)
      · exact hinf h
      · exact hinfinity h
      · exact hnan h
    rw [decide_eq_false hword, Bool.false_or]
    generalize spanDigits (signed cs).2 = parts
    obtain ⟨values, rest⟩ := parts
    simp only
    split
    · exact isSome_ite_map _ _ _
    · rename_i hpoint
      rw [behindPoint.eq_2 rest hpoint]
      exact isSome_ite_map _ _ _

/-- What is behind a sign is read as digits with a point and an exponent, or is a name. -/
theorem isUnsigned_iff (body : List Char) : IsUnsigned body ↔
    String.ofList (body.map Char.toLower) ∈ names ∨
      ¬ ((spanDigits body).1 = [] ∧ (behindPoint (spanDigits body).2).1 = []) ∧
        IsExponent (behindPoint (spanDigits body).2).2 := by
  constructor
  · intro h
    cases h with
    | name known => exact Or.inl known
    | whole all nonempty power =>
        rw [spanDigits_append all power.head_not_digit, power.behindPoint, List.map_eq_nil_iff]
        exact Or.inr ⟨fun h => nonempty h.1, power⟩
    | @fraction whole fraction exponent before behind nonempty power =>
        -- neither the point nor the letter of an exponent is a digit
        have hpoint : behindPoint ('.' :: (fraction ++ exponent)) = _ :=
          spanDigits_append behind power.head_not_digit
        rw [spanDigits_append before (by rintro _ ⟨⟩; rfl), hpoint, List.map_eq_nil_iff,
          List.map_eq_nil_iff, ← List.append_eq_nil_iff]
        exact Or.inr ⟨nonempty, power⟩
  · rintro (hknown | ⟨hsome, hpower⟩)
    · exact .name hknown
    obtain ⟨digits, hdigits, hbody, hvalues⟩ := exists_digits body
    rw [hvalues, List.map_eq_nil_iff] at hsome
    rcases behindPoint_cases (spanDigits body).2 with ⟨cs, hrest, hpoint⟩ | hplain
    · obtain ⟨fraction, hfraction, hcs, hvalues'⟩ := exists_digits cs
      rw [hpoint, hvalues', List.map_eq_nil_iff, ← List.append_eq_nil_iff] at hsome
      rw [hpoint] at hpower
      rw [hbody, hrest, hcs]
      exact .fraction hdigits hfraction hsome hpower
    · rw [hplain] at hsome hpower
      rw [hbody]
      exact .whole hdigits (fun h => hsome ⟨h, rfl⟩) hpower

theorem IsUnsigned.noSignInFront (h : IsUnsigned cs) : NoSignInFront cs := by
  have hnames : ∀ word ∈ names, ∀ d ∈ word.toList.head?, d ≠ '-' ∧ d ≠ '+' := by simp [names]
  cases h with
  | name known =>
      intro c hc
      have hlower := hnames _ known c.toLower
        (by rw [String.toList_ofList, List.head?_map, hc]; rfl)
      constructor
      · rintro rfl
        exact hlower.1 rfl
      · rintro rfl
        exact hlower.2 rfl
  | whole all nonempty power => exact all.noSignInFront nonempty _
  | @fraction whole fraction exponent before behind nonempty power =>
      by_cases hwhole : whole = []
      · subst hwhole
        rintro _ ⟨⟩
        decide
      · exact before.noSignInFront hwhole _

/-- The texts that are read as doubles are the numerals. -/
theorem isSome_ofChars?_iff (cs : List Char) :
    (Double.ofChars? cs).isSome = true ↔ IsNumeral cs := by
  have hbody : IsNumeral cs ↔ IsUnsigned (signed cs).2 := by
    constructor
    · rintro ⟨sign, hsign, body, hbody, rfl⟩
      rw [signed_append hsign hbody.noSignInFront]
      exact hbody
    · intro h
      obtain ⟨sign, hsign, hcs, -⟩ := exists_sign cs
      exact ⟨sign, hsign, _, h, hcs⟩
  rw [hbody, isUnsigned_iff, isSome_ofChars?_eq, Bool.or_eq_true_iff, decide_eq_true_iff,
    Bool.and_eq_true_iff, Bool.not_eq_true', Bool.eq_false_iff, ne_eq, Bool.and_eq_true_iff,
    List.isEmpty_iff, List.isEmpty_iff, isSome_exponent?_iff]

/-- A whole number can be read as a double too. -/
theorem IsWhole.isNumeral (h : IsWhole cs) : IsNumeral cs := by
  obtain ⟨sign, hsign, digits, hdigits, hne, rfl⟩ := h
  have hbody := IsUnsigned.whole hdigits hne .absent
  rw [List.append_nil] at hbody
  exact ⟨sign, hsign, digits, hbody, rfl⟩

/-! ## Characters of numerals -/

/-- The characters that come up in numerals. -/
def isNumeric (c : Char) : Bool := c.isAlphanum || ['-', '+', '.'].contains c

theorem isNumeric_of_isDigit {c : Char} (h : c.isDigit = true) : isNumeric c = true := by
  simp [isNumeric, Char.isAlphanum, h]

theorem isNumeric_of_signs {sign : List Char} (h : sign ∈ signs) :
    ∀ c ∈ sign, isNumeric c = true := by
  have hall : ∀ sign ∈ signs, ∀ c ∈ sign, isNumeric c = true := by simp [signs, isNumeric]
  exact hall sign h

theorem IsWhole.isNumeric (h : IsWhole cs) : ∀ c ∈ cs, isNumeric c = true := by
  obtain ⟨sign, hsign, digits, hdigits, -, rfl⟩ := h
  exact List.forall_mem_append.mpr
    ⟨isNumeric_of_signs hsign, fun c hc => isNumeric_of_isDigit (hdigits c hc)⟩

theorem IsExponent.isNumeric (h : IsExponent cs) : ∀ c ∈ cs, isNumeric c = true := by
  cases h with
  | absent => exact nofun
  | power letter whole =>
      refine List.forall_mem_cons.mpr ⟨?_, whole.isNumeric⟩
      rcases letter with rfl | rfl <;> rfl

theorem isAlpha_of_toLower {c : Char} (h : c.toLower.isAlpha = true) : c.isAlpha = true := by
  by_cases hupper : c.isUpper = true
  · rw [Char.isAlpha, hupper, Bool.true_or]
  · rwa [Char.toLower_eq_of_not_isUpper hupper] at h

theorem IsNumeral.isNumeric (h : IsNumeral cs) : ∀ c ∈ cs, isNumeric c = true := by
  obtain ⟨sign, hsign, body, hbody, rfl⟩ := h
  refine List.forall_mem_append.mpr ⟨isNumeric_of_signs hsign, ?_⟩
  cases hbody with
  | name known =>
      have hnames : ∀ word ∈ names, ∀ d ∈ word.toList, d.isAlpha = true := by simp [names]
      intro c hc
      have hletter := hnames _ known c.toLower
        (by rw [String.toList_ofList]; exact List.mem_map_of_mem hc)
      rw [Decimal.isNumeric, Char.isAlphanum, isAlpha_of_toLower hletter]
      rfl
  | whole all nonempty power =>
      exact List.forall_mem_append.mpr
        ⟨fun c hc => isNumeric_of_isDigit (all c hc), power.isNumeric⟩
  | fraction before behind nonempty power =>
      refine List.forall_mem_append.mpr
        ⟨fun c hc => isNumeric_of_isDigit (before c hc), List.forall_mem_cons.mpr ⟨rfl, ?_⟩⟩
      exact List.forall_mem_append.mpr
        ⟨fun c hc => isNumeric_of_isDigit (behind c hc), power.isNumeric⟩

end Scaffold.Decimal
