/-!
# Bytes that may be no text

  Every byte sequence has a text: where the bytes are no UTF-8, each longest
  beginning of a character that is not completed, and each byte that begins no
  character, becomes one replacement character. The decoder is an automaton
  that remembers the character it is in.
-/

namespace Scaffold.Text.Utf8

/-- What stands for bytes that are no character. -/
def replacement : Char := '\uFFFD'

/-- A character that is being read: how many bytes it still needs, the range of the next one,
    and the number that has been read so far. -/
structure Pending where
  left : Nat
  low : Nat
  high : Nat
  code : Nat
  deriving DecidableEq

/-- The effect of a byte between characters. -/
inductive First where
  | char (c : Char)
  | more (p : Pending)
  | bad
  deriving DecidableEq

/-- A byte between characters. The range of the second byte keeps out overlong forms,
    surrogates, and numbers that are too large. -/
def first (b : Nat) : First :=
  if b < 0x80 then .char (Char.ofNat b)
  else if b < 0xC2 then .bad
  else if b < 0xE0 then .more ⟨1, 0x80, 0xBF, b - 0xC0⟩
  else if b < 0xF0 then
    .more ⟨2, if b = 0xE0 then 0xA0 else 0x80, if b = 0xED then 0x9F else 0xBF, b - 0xE0⟩
  else if b < 0xF5 then
    .more ⟨3, if b = 0xF0 then 0x90 else 0x80, if b = 0xF4 then 0x8F else 0xBF, b - 0xF0⟩
  else .bad

/-- The characters and the state behind a byte between characters. -/
def First.emit : First → List Char × Option Pending
  | char c => ([c], none)
  | more p => ([], some p)
  | bad => ([replacement], none)

/-- The characters and the state behind a byte. -/
def step (state : Option Pending) (b : Nat) : List Char × Option Pending :=
  match state with
  | none => (first b).emit
  | some p =>
    if p.low ≤ b ∧ b ≤ p.high then
      let code := p.code * 64 + (b - 0x80)
      if p.left ≤ 1 then ([Char.ofNat code], none) else ([], some ⟨p.left - 1, 0x80, 0xBF, code⟩)
    else
      let (cs, next) := (first b).emit
      (replacement :: cs, next)

/-- The characters of bytes, from any state. -/
def decodeFrom (state : Option Pending) : List UInt8 → List Char
  | [] => if state.isSome then [replacement] else []
  | b :: bs =>
    let (cs, next) := step state b.toNat
    cs ++ decodeFrom next bs

/-- The text of bytes. -/
def decode (bytes : ByteArray) : String := String.ofList (decodeFrom none bytes.toList)

end Scaffold.Text.Utf8
