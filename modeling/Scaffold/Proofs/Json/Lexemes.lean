import Mathlib.Data.List.Forall2
import Mathlib.Tactic.IntervalCases
import Scaffold.Proofs.Json.Scan

/-!
# Spellings of texts and numbers

  A character of a text can stand for itself, or it can be escaped, by a letter
  or by its number. A number has few spellings: an exponent may be announced by
  a small or a capital letter, and it may do without its plus sign. The
  automaton takes every one of these spellings to the same text or number.
-/

namespace Scaffold.Json

/-! ## Spellings of texts -/

/-- The spellings of one unit of a text. -/
inductive Piece.Spelled : Piece → List Char → Prop where
  | plain {c : Char} (hquote : c ≠ '"') (hback : c ≠ '\\') (hcontrol : 0x20 ≤ c.toNat) :
      Spelled (.char c) [c]
  /-- A backslash and a letter. -/
  | letter {c e : Char} (h : escaped? c = some e) : Spelled (.char e) ['\\', c]
  /-- A code unit with four hexadecimal digits. -/
  | code {a b c d : Char} {x y z u : Nat} (ha : hexDigit? a = some x) (hb : hexDigit? b = some y)
      (hc : hexDigit? c = some z) (hd : hexDigit? d = some u) :
      Spelled (.ofUnit (((x * 16 + y) * 16 + z) * 16 + u)) ['\\', 'u', a, b, c, d]

theorem State.Reads.piece {p : Piece} {cs : List Char} (h : p.Spelled cs) (ps : List Piece) :
    (State.text ps).Reads cs [] (.text (p :: ps)) := by
  cases h with
  | plain hquote hback hcontrol =>
      refine one ?_
      rw [step, if_neg hquote, if_neg hback, if_neg (Nat.not_lt.mpr hcontrol)]
  | @letter c e h =>
      have hletter : (State.escape ps).step c = .next [] (.text (.char e :: ps)) := by
        have hu : c ≠ 'u' := by
          rintro rfl
          cases h
        rw [step, if_neg hu, h]
      exact silent rfl (one hletter)
  | @code a b c d x y z u ha hb hc hd =>
      have first : (State.code 4 0 ps).step a = .next [] (.code 3 x ps) := by
        rw [step, ha]
        simp
      have second : (State.code 3 x ps).step b = .next [] (.code 2 (x * 16 + y) ps) := by
        rw [step, hb]
        simp
      have third : (State.code 2 (x * 16 + y) ps).step c =
          .next [] (.code 1 ((x * 16 + y) * 16 + z) ps) := by
        rw [step, hc]
        simp
      have fourth : (State.code 1 ((x * 16 + y) * 16 + z) ps).step d =
          .next [] (.text (.ofUnit (((x * 16 + y) * 16 + z) * 16 + u) :: ps)) := by
        rw [step, hd]
        simp
      exact silent rfl (silent rfl (silent first (silent second (silent third (one fourth)))))

theorem State.Reads.pieces {pieces : List Piece} {css : List (List Char)}
    (h : List.Forall₂ Piece.Spelled pieces css) (ps : List Piece) :
    (State.text ps).Reads css.flatten [] (.text (pieces.reverse ++ ps)) := by
  induction h generalizing ps with
  | nil => exact nil _
  | @cons p cs pieces css hp _ ih =>
      rw [List.flatten_cons, List.reverse_cons, List.append_assoc]
      exact (piece hp ps).append (ih (p :: ps))

/-! ## Spellings of numbers -/

/-- Decimal digits as they are written. -/
def digitChars (ds : List Nat) : List Char := ds.map Nat.digitChar

/-- Decimal digits, at least one. -/
def AreDigits (ds : List Nat) : Prop := ds ≠ [] ∧ ∀ d ∈ ds, d < 10

namespace Numeral

/-- The spelling of whole digits. Zero does not stand before other digits. -/
inductive WholeSpelled : List Nat → List Char → Prop where
  | zero : WholeSpelled [0] ['0']
  | digits {d : Nat} {ds : List Nat} (hd : d ≠ 0) (h : ∀ e ∈ d :: ds, e < 10) :
      WholeSpelled (d :: ds) (digitChars (d :: ds))

/-- The spelling of the digits behind the point, if there is one. -/
inductive FractionSpelled : List Nat → List Char → Prop where
  | absent : FractionSpelled [] []
  | digits {ds : List Nat} (h : AreDigits ds) : FractionSpelled ds ('.' :: digitChars ds)

/-- The spellings of an exponent, if there is one. -/
inductive ExponentSpelled : Option (Bool × List Nat) → List Char → Prop where
  | absent : ExponentSpelled none []
  | unsigned {c : Char} {ds : List Nat} (hc : c = 'e' ∨ c = 'E') (h : AreDigits ds) :
      ExponentSpelled (some (false, ds)) (c :: digitChars ds)
  | signed {c : Char} {down : Bool} {ds : List Nat} (hc : c = 'e' ∨ c = 'E') (h : AreDigits ds) :
      ExponentSpelled (some (down, ds)) (c :: (if down then '-' else '+') :: digitChars ds)

/-- The spellings of a number. -/
def Spelled (n : Numeral) (cs : List Char) : Prop :=
  ∃ whole fraction exponent, WholeSpelled n.whole whole ∧ FractionSpelled n.fraction fraction ∧
    ExponentSpelled n.exponent exponent ∧
    cs = (if n.negative then ['-'] else []) ++ whole ++ fraction ++ exponent

end Numeral

theorem digit?_digitChar : ∀ d < 10, digit? (Nat.digitChar d) = some d := by
  decide

/-- A digit inside a number. -/
theorem State.Reads.digit {part part' : NumberPart} {d : Nat} (hd : d < 10)
    (h : part.afterDigit d = some part') (n : Numeral) :
    (State.number part n).Reads [Nat.digitChar d] [] (.number part' (n.push d part)) := by
  refine one ?_
  rw [step, continueNumber, digit?_digitChar d hd]
  simp only [h]

/-- Digits in a part that they do not end. -/
theorem State.Reads.digits (part : NumberPart) (h : ∀ d, part.afterDigit d = some part)
    {ds : List Nat} (hds : ∀ d ∈ ds, d < 10) (n : Numeral) :
    (State.number part n).Reads (digitChars ds) []
      (.number part (ds.foldl (fun n d => n.push d part) n)) := by
  induction ds generalizing n with
  | nil => exact nil _
  | cons d ds ih =>
      have hrest := ih (fun e he => hds e (List.mem_cons_of_mem d he)) (n.push d part)
      exact (digit (hds d List.mem_cons_self) (h d) n).append hrest

/-- Digits of which the first one leads into a part that they do not end. -/
theorem State.Reads.areDigits (part part' : NumberPart) (h : ∀ d, part.afterDigit d = some part')
    (h' : ∀ d, part'.afterDigit d = some part') {ds : List Nat} (hds : AreDigits ds) (n : Numeral)
    (hpush : ∀ d, n.push d part = n.push d part') :
    (State.number part n).Reads (digitChars ds) []
      (.number part' (ds.foldl (fun n d => n.push d part') n)) := by
  obtain ⟨hne, hten⟩ := hds
  cases ds with
  | nil => exact absurd rfl hne
  | cons d ds =>
      have hrest := digits part' h' (fun e he => hten e (List.mem_cons_of_mem d he))
        (n.push d part')
      have hfirst := digit (hten d List.mem_cons_self) (h d) n
      rw [hpush] at hfirst
      exact hfirst.append hrest

namespace Numeral

theorem foldl_push_whole (ds : List Nat) (n : Numeral) :
    ds.foldl (fun n d => n.push d .whole) n = { n with whole := n.whole ++ ds } := by
  induction ds generalizing n with
  | nil => rw [List.append_nil]; rfl
  | cons d ds ih => rw [List.foldl_cons, ih, push, List.append_assoc, List.singleton_append]

theorem foldl_push_fraction (ds : List Nat) (n : Numeral) :
    ds.foldl (fun n d => n.push d .fraction) n = { n with fraction := n.fraction ++ ds } := by
  induction ds generalizing n with
  | nil => rw [List.append_nil]; rfl
  | cons d ds ih => rw [List.foldl_cons, ih, push, List.append_assoc, List.singleton_append]

theorem foldl_push_exponent (ds es : List Nat) (n : Numeral) (down : Bool) :
    ds.foldl (fun n d => n.push d .exponent) { n with exponent := some (down, es) } =
      { n with exponent := some (down, es ++ ds) } := by
  induction ds generalizing es with
  | nil => rw [List.append_nil]; rfl
  | cons d ds ih =>
      rw [List.foldl_cons, push, Option.map_some]
      dsimp only
      rw [ih, List.append_assoc, List.singleton_append]

/-- A digit other than zero begins a number. -/
theorem begin_digitChar {d : Nat} (hten : d < 10) (hd : d ≠ 0) :
    begin (Nat.digitChar d) = .next [] (.number .whole ⟨false, [d], [], none⟩) := by
  interval_cases d <;> first | rfl | exact absurd rfl hd

theorem WholeSpelled.reads {ds : List Nat} {cs : List Char} (h : WholeSpelled ds cs)
    (negative : Bool) :
    ∃ part : NumberPart, part.mayPoint = true ∧
      State.between.Reads ((if negative then ['-'] else []) ++ cs) []
        (.number part ⟨negative, ds, [], none⟩) := by
  cases h with
  | zero =>
      refine ⟨.zero, rfl, ?_⟩
      cases negative with
      | false => exact .one rfl
      | true => exact .silent rfl (.one rfl)
  | @digits d ds hd h =>
      have hten := h d List.mem_cons_self
      have hrest : (State.number .whole ⟨negative, [d], [], none⟩).Reads (digitChars ds) []
          (.number .whole ⟨negative, d :: ds, [], none⟩) := by
        have := State.Reads.digits .whole (fun _ => rfl)
          (fun e he => h e (List.mem_cons_of_mem d he)) ⟨negative, [d], [], none⟩
        rwa [foldl_push_whole] at this
      refine ⟨.whole, rfl, ?_⟩
      cases negative with
      | false => exact .silent (begin_digitChar hten hd) hrest
      | true =>
          have hsign : NumberPart.afterDigit d .sign = some .whole := congrArg some (if_neg hd)
          have hfirst := State.Reads.digit hten hsign ⟨true, [], [], none⟩
          exact .silent rfl (hfirst.append hrest)

theorem FractionSpelled.reads {ds : List Nat} {cs : List Char} (h : FractionSpelled ds cs)
    {part : NumberPart} (hpart : part.mayPoint = true) {n : Numeral} (hn : n.fraction = []) :
    ∃ part' : NumberPart, part'.mayScale = true ∧
      (State.number part n).Reads cs [] (.number part' { n with fraction := ds }) := by
  cases h with
  | absent =>
      refine ⟨part, ?_, ?_⟩
      · cases part <;> first | rfl | exact nomatch hpart
      · rw [← hn]
        exact .nil _
  | digits h =>
      have hpoint : (State.number part n).step '.' = .next [] (.number .point n) := by
        cases part <;> first | rfl | exact nomatch hpart
      have hdigits := State.Reads.areDigits .point .fraction (fun _ => rfl)
        (fun _ => rfl) h n fun _ => rfl
      rw [foldl_push_fraction, hn, List.nil_append] at hdigits
      exact ⟨.fraction, rfl, .silent hpoint hdigits⟩

theorem ExponentSpelled.reads {e : Option (Bool × List Nat)} {cs : List Char}
    (h : ExponentSpelled e cs) {part : NumberPart} (hpart : part.mayScale = true) {n : Numeral}
    (hn : n.exponent = none) :
    ∃ part' : NumberPart, part'.mayEnd = true ∧
      (State.number part n).Reads cs [] (.number part' { n with exponent := e }) := by
  have hletter : ∀ {c : Char}, c = 'e' ∨ c = 'E' → (State.number part n).step c =
      .next [] (.number .letter { n with exponent := some (false, []) }) := by
    rintro c (rfl | rfl)
    · cases part <;> first | rfl | exact nomatch hpart
    · cases part <;> first | rfl | exact nomatch hpart
  cases h with
  | absent =>
      refine ⟨part, ?_, ?_⟩
      · cases part <;> first | rfl | exact nomatch hpart
      · rw [← hn]
        exact .nil _
  | @unsigned c ds hc h =>
      have hdigits := State.Reads.areDigits .letter .exponent (fun _ => rfl)
        (fun _ => rfl) h { n with exponent := some (false, []) } fun _ => rfl
      rw [foldl_push_exponent, List.nil_append] at hdigits
      exact ⟨.exponent, rfl, .silent (hletter hc) hdigits⟩
  | @signed c down ds hc h =>
      have hsign : (State.number .letter { n with exponent := some (false, []) }).step
          (if down then '-' else '+') =
            .next [] (.number .exponentSign { n with exponent := some (down, []) }) := by
        cases down <;> rfl
      have hdigits := State.Reads.areDigits .exponentSign .exponent
        (fun _ => rfl) (fun _ => rfl) h { n with exponent := some (down, []) } fun _ => rfl
      rw [foldl_push_exponent, List.nil_append] at hdigits
      exact ⟨.exponent, rfl, .silent (hletter hc) (.silent hsign hdigits)⟩

/-- A spelled number is read up to its end, which shows only in what follows. -/
theorem Spelled.reads {n : Numeral} {cs : List Char} (h : n.Spelled cs) :
    ∃ part : NumberPart, part.mayEnd = true ∧
      State.between.Reads cs [] (.number part n) := by
  obtain ⟨whole, fraction, exponent, hwhole, hfraction, hexponent, rfl⟩ := h
  obtain ⟨part, hpoint, hw⟩ := hwhole.reads n.negative
  obtain ⟨part', hscale, hf⟩ := hfraction.reads hpoint (n := ⟨n.negative, n.whole, [], none⟩) rfl
  obtain ⟨part'', hend, he⟩ := hexponent.reads hscale
    (n := ⟨n.negative, n.whole, n.fraction, none⟩) rfl
  exact ⟨part'', hend, (hw.append hf).append he⟩

end Numeral

end Scaffold.Json
