import Mathlib
import Scaffold.Proofs.Text.AsciiCase

/-!
# Texts by byte offsets

  A text can be cut at a byte offset where a character begins, or at its end,
  and nowhere else; and it has a byte at every offset in front of its end. A
  computation that cuts and reads either breaks off at the first access that is
  not possible, or gives its result together with a log of its accesses. The log
  tells where a text has been cut, so that no cut can go unnoticed.
-/

namespace Scaffold.Text

open String (utf8Len)

/-! ## Cutting -/

/-- The characters in front of a byte offset and those behind it, if it is not inside a character
    and not behind the end. -/
def cutAt? : Nat → List Char → Option (List Char × List Char)
  | 0, cs => some ([], cs)
  | _ + 1, [] => none
  | n + 1, c :: cs =>
    if c.utf8Size ≤ n + 1 then
      (cutAt? (n + 1 - c.utf8Size) cs).map fun parts => (c :: parts.1, parts.2)
    else none

theorem cutAt?_append (front back : List Char) :
    cutAt? (utf8Len front) (front ++ back) = some (front, back) := by
  induction front with
  | nil => cases back <;> rfl
  | cons c front ih =>
      have hpos := c.utf8Size_pos
      rw [String.utf8Len_cons, List.cons_append]
      obtain ⟨n, hn⟩ := Nat.exists_eq_add_one.mpr (show 0 < utf8Len front + c.utf8Size by omega)
      have hrest : n + 1 - c.utf8Size = utf8Len front := by omega
      rw [hn, cutAt?, if_pos (by omega), hrest, ih]
      rfl

/-- A text is not cut inside a character. -/
theorem cutAt?_inside {k : Nat} {c : Char} (hpos : 0 < k) (hlt : k < c.utf8Size)
    (front back : List Char) : cutAt? (utf8Len front + k) (front ++ c :: back) = none := by
  induction front with
  | nil =>
      obtain ⟨n, rfl⟩ := Nat.exists_eq_add_one.mpr hpos
      rw [String.utf8Len_nil, Nat.zero_add, List.nil_append, cutAt?, if_neg (by omega)]
  | cons d front ih =>
      have hsize := d.utf8Size_pos
      rw [String.utf8Len_cons, List.cons_append]
      obtain ⟨n, hn⟩ := Nat.exists_eq_add_one.mpr
        (show 0 < utf8Len front + d.utf8Size + k by omega)
      have hrest : n + 1 - d.utf8Size = utf8Len front + k := by omega
      rw [hn, cutAt?, if_pos (by omega), hrest, ih]
      rfl

theorem cutAt?_eq_some {n : Nat} {cs front back : List Char}
    (h : cutAt? n cs = some (front, back)) : cs = front ++ back ∧ utf8Len front = n := by
  induction cs generalizing n front with
  | nil =>
      cases n with
      | zero =>
          obtain ⟨rfl, rfl⟩ := Prod.mk.inj (Option.some.inj h)
          exact ⟨rfl, rfl⟩
      | succ n => exact nomatch h
  | cons c cs ih =>
      cases n with
      | zero =>
          obtain ⟨rfl, rfl⟩ := Prod.mk.inj (Option.some.inj h)
          exact ⟨rfl, rfl⟩
      | succ n =>
          rw [cutAt?] at h
          split at h
          · rename_i hle
            obtain ⟨parts, hparts, heq⟩ := Option.map_eq_some_iff.mp h
            obtain ⟨rfl, rfl⟩ := Prod.mk.inj heq
            obtain ⟨hcs, hlen⟩ := ih hparts
            refine ⟨by rw [hcs]; rfl, ?_⟩
            rw [String.utf8Len_cons, hlen]
            omega
          · exact nomatch h

/-- A text can be cut exactly at the borders of its characters. -/
theorem isSome_cutAt?_iff {n : Nat} {s : String} :
    (cutAt? n s.toList).isSome = true ↔ String.Pos.Raw.IsValid s ⟨n⟩ := by
  rw [String.Pos.Raw.isValid_iff_exists_append, Option.isSome_iff_exists]
  constructor
  · rintro ⟨⟨front, back⟩, h⟩
    obtain ⟨hs, hn⟩ := cutAt?_eq_some h
    refine ⟨String.ofList front, String.ofList back, ?_, ?_⟩
    · rw [← String.ofList_append, ← hs, String.ofList_toList]
    · rw [String.rawEndPos_ofList, hn]
  · rintro ⟨front, back, rfl, hn⟩
    refine ⟨(front.toList, back.toList), ?_⟩
    rw [String.toList_append]
    have hlen : n = utf8Len front.toList := by
      have h := congrArg String.Pos.Raw.byteIdx hn
      rw [← String.ofList_toList (s := front), String.rawEndPos_ofList] at h
      exact h
    rw [hlen]
    exact cutAt?_append _ _

/-! ## Bytes of characters -/

/-- The characters of one byte are those of ASCII. -/
theorem utf8Size_eq_one_iff (c : Char) : c.utf8Size = 1 ↔ isAscii c = true := by
  rw [isAscii, decide_eq_true_iff, Char.utf8Size_eq_one_iff, UInt32.le_iff_toNat_le]
  show c.toNat ≤ 127 ↔ _
  omega

theorem utf8Len_of_isAscii {cs : List Char} (h : ∀ c ∈ cs, isAscii c = true) :
    utf8Len cs = cs.length := by
  induction cs with
  | nil => rfl
  | cons c cs ih =>
      obtain ⟨hc, hcs⟩ := List.forall_mem_cons.mp h
      rw [String.utf8Len_cons, ih hcs, (utf8Size_eq_one_iff c).mpr hc, List.length_cons]

/-- Lower case in ASCII moves no character. -/
theorem utf8Len_map_toLower (cs : List Char) : utf8Len (cs.map Char.toLower) = utf8Len cs := by
  have hsize : ∀ c : Char, c.toLower.utf8Size = c.utf8Size := by
    intro c
    cases h : isAscii c with
    | true =>
        have hone := (utf8Size_eq_one_iff c).mpr h
        rw [hone, (utf8Size_eq_one_iff c.toLower).mpr (isAscii_toLower h)]
    | false => rw [toLower_of_not_isAscii h]
  induction cs with
  | nil => rfl
  | cons c cs ih => rw [List.map_cons, String.utf8Len_cons, String.utf8Len_cons, ih, hsize]

theorem length_flatMap_utf8EncodeChar (cs : List Char) :
    (cs.flatMap String.utf8EncodeChar).length = utf8Len cs := by
  induction cs with
  | nil => rfl
  | cons c cs ih =>
      rw [List.flatMap_cons, List.length_append, ih, String.length_utf8EncodeChar,
        String.utf8Len_cons, Nat.add_comm]

/-- The last byte of a character beyond ASCII is none of ASCII. -/
theorem getLast?_utf8EncodeChar {c : Char} (h : isAscii c = false) :
    ∃ b, (String.utf8EncodeChar c).getLast? = some b ∧ 128 ≤ b.toNat := by
  have hcode : ¬ c.val.toNat ≤ 127 := by
    have hlarge := of_decide_eq_false h
    show ¬ c.toNat ≤ 127
    omega
  refine ⟨UInt8.ofNat (c.val.toNat % 64 + 128), ?_, ?_⟩
  · rw [String.utf8EncodeChar, if_neg hcode]
    split_ifs <;> rfl
  · rw [UInt8.toNat_ofNat']
    omega

/-! ## Where characters stand -/

/-- Where the last character with a property begins. -/
def lastOffset? (p : Char → Bool) : List Char → Option Nat
  | [] => none
  | c :: cs => match lastOffset? p cs with
    | some n => some (c.utf8Size + n)
    | none => if p c then some 0 else none

theorem lastOffset?_eq_none {p : Char → Bool} {cs : List Char} (h : lastOffset? p cs = none) :
    ∀ c ∈ cs, p c = false := by
  induction cs with
  | nil => exact fun _ hc => nomatch hc
  | cons c cs ih =>
      rw [lastOffset?] at h
      cases hrest : lastOffset? p cs with
      | some n => rw [hrest] at h; exact nomatch h
      | none =>
          rw [hrest] at h
          refine List.forall_mem_cons.mpr ⟨?_, ih hrest⟩
          cases hc : p c with
          | false => rfl
          | true => simp [hc] at h

theorem lastOffset?_eq_some {p : Char → Bool} {cs : List Char} {n : Nat}
    (h : lastOffset? p cs = some n) : ∃ front c back, cs = front ++ c :: back ∧ p c = true ∧
      (∀ d ∈ back, p d = false) ∧ utf8Len front = n := by
  induction cs generalizing n with
  | nil => exact nomatch h
  | cons c cs ih =>
      rw [lastOffset?] at h
      cases hrest : lastOffset? p cs with
      | some m =>
          rw [hrest] at h
          obtain ⟨front, d, back, rfl, hd, hback, hm⟩ := ih hrest
          refine ⟨c :: front, d, back, rfl, hd, hback, ?_⟩
          rw [String.utf8Len_cons, hm, Nat.add_comm]
          exact Option.some.inj h
      | none =>
          rw [hrest] at h
          have hc : p c = true ∧ n = 0 := by
            cases hc : p c with
            | false => simp [hc] at h
            | true => simpa [hc, eq_comm] using h
          exact ⟨[], c, cs, rfl, hc.1, lastOffset?_eq_none hrest, hc.2.symm⟩

/-! ## Accesses -/

/-- An access to a text by a byte offset. -/
inductive Access where
  /-- The text is cut in two at the offset. -/
  | cut (offset : Nat)
  /-- The byte at the offset is read. -/
  | read (offset : Nat)
  deriving DecidableEq

/-- A computation that logs its accesses and breaks off at one that is not possible. -/
abbrev Accessing := StateT (List Access) Option

namespace Accessing

/-- The parts of a text in front of an offset and behind it. -/
def cut (cs : List Char) (offset : Nat) : Accessing (List Char × List Char) := do
  modify (· ++ [.cut offset])
  cutAt? offset cs

/-- The byte of a text at an offset. -/
def read (cs : List Char) (offset : Nat) : Accessing UInt8 := do
  modify (· ++ [.read offset])
  (cs.flatMap String.utf8EncodeChar)[offset]?

/-- The offset that lies so many bytes in front of the end of a text. -/
def fromEnd (cs : List Char) (bytes : Nat) : Accessing Nat :=
  if bytes ≤ utf8Len cs then pure (utf8Len cs - bytes) else (none : Option Nat)

variable {α β : Type} {allowed : Access → Prop} {m : Accessing α} {f : α → Accessing β}
  {a : α} {b : β}

/-- The computation gives `a`, and all accesses that it logs are allowed. -/
def Gives (allowed : Access → Prop) (m : Accessing α) (a : α) : Prop :=
  ∃ log, (∀ x ∈ log, allowed x) ∧ ∀ before, m.run before = some (a, before ++ log)

theorem Gives.pure (allowed : Access → Prop) (a : α) : Gives allowed (pure a) a := by
  refine ⟨[], List.forall_mem_nil _, fun before => ?_⟩
  rw [List.append_nil]
  rfl

theorem Gives.bind (hm : Gives allowed m a) (hf : Gives allowed (f a) b) :
    Gives allowed (m >>= f) b := by
  obtain ⟨log, hlog, hrun⟩ := hm
  obtain ⟨log', hlog', hrun'⟩ := hf
  refine ⟨log ++ log', List.forall_mem_append.mpr ⟨hlog, hlog'⟩, fun before => ?_⟩
  rw [StateT.run_bind, hrun]
  show (f a).run (before ++ log) = _
  rw [hrun', List.append_assoc]

theorem gives_cut {front back : List Char} (h : allowed (.cut (utf8Len front))) :
    Gives allowed (cut (front ++ back) (utf8Len front)) (front, back) := by
  refine ⟨[.cut (utf8Len front)], List.forall_mem_singleton.mpr h, fun before => ?_⟩
  have hcut := cutAt?_append front back
  show (cutAt? (utf8Len front) (front ++ back)).bind _ = _
  rw [hcut]
  rfl

theorem gives_read {cs : List Char} {offset : Nat} {byte : UInt8} (h : allowed (.read offset))
    (hbyte : (cs.flatMap String.utf8EncodeChar)[offset]? = some byte) :
    Gives allowed (read cs offset) byte := by
  refine ⟨[.read offset], List.forall_mem_singleton.mpr h, fun before => ?_⟩
  show ((cs.flatMap String.utf8EncodeChar)[offset]?).bind _ = _
  rw [hbyte]
  rfl

theorem gives_fromEnd (front back : List Char) :
    Gives allowed (fromEnd (front ++ back) (utf8Len back)) (utf8Len front) := by
  have hlen := String.utf8Len_append front back
  rw [fromEnd, if_pos (by omega), hlen, Nat.add_sub_cancel]
  exact .pure allowed _

end Accessing

end Scaffold.Text
