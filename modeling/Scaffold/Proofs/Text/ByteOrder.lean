import Scaffold.Path

/-!
# The byte order of texts

  File names are sorted by the bytes of their UTF-8 form. Two texts with
  beginnings of one length are told apart by these beginnings, and by what
  follows only where the beginnings agree; so a name that begins with a stamp
  of fixed width is sorted by its stamp.
-/

namespace Scaffold

namespace Text

/-- The bytes of a text in UTF-8. -/
def bytes (s : String) : List UInt8 := s.toUTF8.data.toList

/-- `s` stands before `t` when texts are sorted by their bytes. -/
def Precedes (s t : String) : Prop := List.Lex (· < ·) (bytes s) (bytes t)

/-- Beginnings of one length decide, unless they agree. -/
theorem lex_append_iff {α : Type} {r : α → α → Prop} {as bs : List α} (h : as.length = bs.length)
    (as' bs' : List α) :
    List.Lex r (as ++ as') (bs ++ bs') ↔ List.Lex r as bs ∨ as = bs ∧ List.Lex r as' bs' := by
  induction as generalizing bs with
  | nil =>
      have hb : bs = [] := List.length_eq_zero_iff.mp h.symm
      subst hb
      simp
  | cons a as ih =>
      cases bs with
      | nil => exact nomatch h
      | cons b bs =>
          have hl : as.length = bs.length := Nat.succ.inj h
          simp only [List.cons_append, List.cons_lex_cons_iff, ih hl, List.cons.injEq, and_assoc,
            or_assoc, and_or_left]

@[simp] theorem bytes_append (s t : String) : bytes (s ++ t) = bytes s ++ bytes t := by
  simp [bytes]

theorem bytes_ofList (cs : List Char) :
    bytes (String.ofList cs) = cs.flatMap String.utf8EncodeChar := by
  simp [bytes, List.utf8Encode]

/-- A common beginning does not matter. -/
theorem Precedes.append_left {s t : String} (h : Precedes s t) (p : String) :
    Precedes (p ++ s) (p ++ t) := by
  rw [Precedes, bytes_append, bytes_append, lex_append_iff rfl]
  exact Or.inr ⟨rfl, h⟩

/-- What follows texts of one length that are in order does not matter. -/
theorem Precedes.append_right {s t : String} (h : Precedes s t)
    (hl : (bytes s).length = (bytes t).length) (s' t' : String) :
    Precedes (s ++ s') (t ++ t') := by
  rw [Precedes, bytes_append, bytes_append, lex_append_iff hl]
  exact Or.inl h

end Text

/-- `p` stands before `q` when paths are sorted by the bytes of their texts. -/
def Path.Precedes (p q : Path) : Prop := Text.Precedes p.text q.text

end Scaffold
