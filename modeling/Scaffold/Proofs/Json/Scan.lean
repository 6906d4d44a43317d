import Scaffold.Json.Token
import Scaffold.Json.Value

/-!
# Reading written texts into tokens

  The automaton reads a piece of text the same way whatever stands behind it.
  So it is enough to say of each piece which tokens it completes and in which
  state it leaves the automaton, and these statements can be put together like
  the pieces. A text between quotes is taken character by character: an escape
  leads back into the text with the character that was escaped.
-/

namespace Scaffold.Json

/-- Between the states `s` and `s'` these characters complete these tokens, whatever follows. -/
def State.Reads (s : State) (cs : List Char) (ts : List Token) (s' : State) : Prop :=
  ∀ ds, s.run (cs ++ ds) = ts ++ s'.run ds

namespace State.Reads

variable {s s' s'' : State} {cs cs' : List Char} {ts ts' : List Token}

theorem nil (s : State) : s.Reads [] [] s := fun _ => rfl

theorem append (h : s.Reads cs ts s') (h' : s'.Reads cs' ts' s'') :
    s.Reads (cs ++ cs') (ts ++ ts') s'' := by
  intro ds
  rw [List.append_assoc, h (cs' ++ ds), h' ds, List.append_assoc]

/-- One character. -/
theorem one {c : Char} (h : s.step c = .next ts s') : s.Reads [c] ts s' := by
  intro ds
  rw [List.singleton_append, run, h]

/-- One character that completes no token, then more. -/
theorem silent {c : Char} (h : s.step c = .next [] s') (h' : s'.Reads cs ts s'') :
    s.Reads (c :: cs) ts s'' :=
  (one h).append h'

/-- A text whose characters lead back between the tokens has the tokens that they complete. -/
theorem tokens_eq {text : String} (h : State.between.Reads text.toList ts .between) :
    tokens text = ts := by
  have h := h []
  rw [List.append_nil] at h
  rw [tokens, h]
  exact List.append_nil ts

end State.Reads

/-! ## Characters of a text -/

/-- The text token of a text. -/
def Piece.ofText (s : String) : List Piece := s.toList.map .char

theorem Piece.decode_map_char (cs : List Char) : Piece.decode (cs.map .char) = some cs := by
  induction cs with
  | nil => rfl
  | cons c cs ih => rw [List.map_cons, decode, ih]; rfl

@[simp] theorem Piece.decode_ofText (s : String) : Piece.decode (ofText s) = some s.toList :=
  decode_map_char s.toList

/-- The number of a control takes up the last two of four hexadecimal digits. -/
theorem Value.toList_hex4 : ∀ n < 0x20,
    (hex4 n).toList = ['0', '0', Nat.digitChar (n / 16), Nat.digitChar (n % 16)] := by
  decide

theorem hexDigit?_digitChar : ∀ d < 16, hexDigit? (Nat.digitChar d) = some d := by
  decide

theorem Piece.ofUnit_toNat {c : Char} (h : c.toNat < 0x20) : ofUnit c.toNat = .char c := by
  have hc : isSurrogate c.toNat = false := by
    have : ¬ 0xD800 ≤ c.toNat := by omega
    simp [isSurrogate, this]
  rw [ofUnit, hc, Char.ofNat_toNat]
  rfl

/-- A control that is escaped by its number. -/
theorem State.Reads.control (ps : List Piece) {c : Char} (h : c.toNat < 0x20) :
    (State.text ps).Reads ("\\u" ++ Value.hex4 c.toNat).toList [] (.text (.char c :: ps)) := by
  have high : hexDigit? (Nat.digitChar (c.toNat / 16)) = some (c.toNat / 16) :=
    hexDigit?_digitChar _ (by omega)
  have low : hexDigit? (Nat.digitChar (c.toNat % 16)) = some (c.toNat % 16) :=
    hexDigit?_digitChar _ (by omega)
  rw [String.toList_append, Value.toList_hex4 _ h]
  have third : (State.code 2 0 ps).step (Nat.digitChar (c.toNat / 16)) =
      .next [] (.code 1 (c.toNat / 16) ps) := by
    rw [step, high]
    simp
  have fourth : (State.code 1 (c.toNat / 16) ps).step (Nat.digitChar (c.toNat % 16)) =
      .next [] (.text (.char c :: ps)) := by
    rw [step, low, ← Piece.ofUnit_toNat h]
    simp only [Nat.le_refl, if_true]
    rw [Nat.div_add_mod']
  -- the first two of the four digits are always zeros
  have opened : (State.text ps).Reads ['\\', 'u', '0', '0'] [] (.code 2 0 ps) :=
    .silent rfl (.silent rfl (.silent rfl (.one rfl)))
  exact opened.append (silent third (one fourth))

/-- A written character leads back into the text. -/
theorem State.Reads.escape (ps : List Piece) (c : Char) :
    (State.text ps).Reads (Value.escape c).toList [] (.text (.char c :: ps)) := by
  unfold Value.escape
  split
  -- the characters that are escaped by a letter or by themselves
  iterate 7 exact silent rfl (one rfl)
  next c hquote hback _ _ _ _ _ =>
    split
    · next hc => exact control ps hc
    · next hc =>
        rw [Char.toString_eq_singleton, String.toList_singleton]
        refine one ?_
        rw [step, if_neg (by simpa using hquote), if_neg (by simpa using hback), if_neg hc]

/-- The written characters of a text, one after the other. -/
theorem State.Reads.escapes (ps : List Piece) (cs : List Char) :
    (State.text ps).Reads (String.join (cs.map Value.escape)).toList []
      (.text ((cs.map .char).reverse ++ ps)) := by
  induction cs generalizing ps with
  | nil => exact nil _
  | cons c cs ih =>
      rw [List.map_cons, String.join_cons, String.toList_append, List.map_cons, List.reverse_cons,
        List.append_assoc]
      exact (escape ps c).append (ih (.char c :: ps))

/-- A text between quotes is one token. -/
theorem State.Reads.quote (s : String) :
    State.between.Reads (Value.quote s).toList [.text (Piece.ofText s)] .between := by
  have inside := escapes [] s.toList
  have closing : (State.text ((s.toList.map Piece.char).reverse ++ [])).Reads ['"']
      [.text (Piece.ofText s)] .between := by
    refine one ?_
    rw [List.append_nil, step, if_pos rfl, List.reverse_reverse]
    rfl
  rw [Value.quote, String.toList_append, String.toList_append]
  exact silent rfl (inside.append closing)

end Scaffold.Json
