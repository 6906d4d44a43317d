/-!
# JSON tokens

  A text is cut into tokens by an automaton that reads one character at a
  time. Where the text breaks the rules of JSON the list ends in a `broken`
  token, so that every text has a token list and a reader meets the fault at
  its place. Text tokens keep escaped surrogates as code units: whether they
  pair up is decided where the text is used.
-/

namespace Scaffold.Json

/-- A unit of a text token: a character, or a surrogate that was written as an escape. -/
inductive Piece where
  | char (c : Char)
  | surrogate (unit : Nat)
  deriving DecidableEq

/-- A number as it was written; digits are kept from left to right. -/
structure Numeral where
  negative : Bool
  whole : List Nat
  /-- The digits behind the point, if there is one. -/
  fraction : List Nat
  /-- Sign and digits of the exponent, if there is one. -/
  exponent : Option (Bool × List Nat)
  deriving DecidableEq

/-- A token. -/
inductive Token where
  | null
  | bool (b : Bool)
  | number (n : Numeral)
  | text (pieces : List Piece)
  | openArray
  | closeArray
  | openObject
  | closeObject
  | comma
  | colon
  /-- The text goes against the rules here. -/
  | broken
  deriving DecidableEq

/-! ## Characters -/

/-- White space of JSON. -/
def isSpace (c : Char) : Bool := c == ' ' || c == '\n' || c == '\t' || c == '\r'

/-- The value of a decimal digit. -/
def digit? (c : Char) : Option Nat :=
  if '0' ≤ c ∧ c ≤ '9' then some (c.toNat - '0'.toNat) else none

/-- The value of a hexadecimal digit in either letter case. -/
def hexDigit? (c : Char) : Option Nat :=
  if '0' ≤ c ∧ c ≤ '9' then some (c.toNat - '0'.toNat)
  else if 'a' ≤ c ∧ c ≤ 'f' then some (c.toNat - 'a'.toNat + 10)
  else if 'A' ≤ c ∧ c ≤ 'F' then some (c.toNat - 'A'.toNat + 10)
  else none

/-- The character of an escape of one letter. -/
def escaped? (c : Char) : Option Char :=
  match c with
  | '"' => some '"'
  | '\\' => some '\\'
  | '/' => some '/'
  | 'b' => some '\x08'
  | 'f' => some '\x0c'
  | 'n' => some '\n'
  | 'r' => some '\r'
  | 't' => some '\t'
  | _ => none

/-- A code unit that stands for a character only together with another one. -/
def isSurrogate (unit : Nat) : Bool := 0xD800 ≤ unit && unit < 0xE000

/-- The unit of a text token that an escaped code unit stands for. -/
def Piece.ofUnit (unit : Nat) : Piece :=
  if isSurrogate unit then .surrogate unit else .char (Char.ofNat unit)

/-! ## The automaton -/

/-- The part of a number that is being read. -/
inductive NumberPart where
  /-- Behind the minus sign. -/
  | sign
  /-- Behind a leading zero. -/
  | zero
  /-- Inside the whole digits. -/
  | whole
  /-- Behind the point. -/
  | point
  /-- Inside the digits behind the point. -/
  | fraction
  /-- Behind the exponent letter. -/
  | letter
  /-- Behind the sign of the exponent. -/
  | exponentSign
  /-- Inside the digits of the exponent. -/
  | exponent
  deriving DecidableEq

/-- What has been read of the present token. -/
inductive State where
  /-- No token has been begun. -/
  | between
  /-- A word, the letters it still needs, and its token. -/
  | word (rest : List Char) (token : Token)
  | number (part : NumberPart) (n : Numeral)
  /-- A text token, its pieces in reverse. -/
  | text (pieces : List Piece)
  /-- Behind a backslash. -/
  | escape (pieces : List Piece)
  /-- A numbered escape that still needs `left` digits. -/
  | code (left : Nat) (unit : Nat) (pieces : List Piece)
  deriving DecidableEq

/-- The effect of one character. -/
inductive Step where
  /-- These tokens are complete and reading goes on. -/
  | next (tokens : List Token) (state : State)
  /-- The character cannot stand here. -/
  | fail

/-- A character between tokens. -/
def begin (c : Char) : Step :=
  if isSpace c then .next [] .between
  else match c with
    | '[' => .next [.openArray] .between
    | ']' => .next [.closeArray] .between
    | '{' => .next [.openObject] .between
    | '}' => .next [.closeObject] .between
    | ',' => .next [.comma] .between
    | ':' => .next [.colon] .between
    | '"' => .next [] (.text [])
    | 'n' => .next [] (.word ['u', 'l', 'l'] .null)
    | 't' => .next [] (.word ['r', 'u', 'e'] (.bool true))
    | 'f' => .next [] (.word ['a', 'l', 's', 'e'] (.bool false))
    | '-' => .next [] (.number .sign ⟨true, [], [], none⟩)
    | _ => match digit? c with
      | some 0 => .next [] (.number .zero ⟨false, [0], [], none⟩)
      | some d => .next [] (.number .whole ⟨false, [d], [], none⟩)
      | none => .fail

/-- The numeral with one more digit in the part that is being read. -/
def Numeral.push (n : Numeral) (d : Nat) : NumberPart → Numeral
  | .sign | .zero | .whole => { n with whole := n.whole ++ [d] }
  | .point | .fraction => { n with fraction := n.fraction ++ [d] }
  | .letter | .exponentSign | .exponent =>
    { n with exponent := n.exponent.map fun (negative, ds) => (negative, ds ++ [d]) }

/-- The part to which a further digit leads; none may follow a leading zero. -/
def NumberPart.afterDigit (d : Nat) : NumberPart → Option NumberPart
  | .sign => some (if d = 0 then .zero else .whole)
  | .zero => none
  | .whole => some .whole
  | .point | .fraction => some .fraction
  | .letter | .exponentSign | .exponent => some .exponent

/-- A number may end in this part. -/
def NumberPart.mayEnd : NumberPart → Bool
  | .zero | .whole | .fraction | .exponent => true
  | .sign | .point | .letter | .exponentSign => false

/-- A point may follow this part. -/
def NumberPart.mayPoint : NumberPart → Bool
  | .zero | .whole => true
  | _ => false

/-- An exponent may follow this part. -/
def NumberPart.mayScale : NumberPart → Bool
  | .zero | .whole | .fraction => true
  | _ => false

/-- A character inside a number. -/
def continueNumber (part : NumberPart) (n : Numeral) (c : Char) : Step :=
  match digit? c with
  | some d => match part.afterDigit d with
    | some part' => .next [] (.number part' (n.push d part))
    | none => .fail
  | none =>
    if c = '.' && part.mayPoint then .next [] (.number .point n)
    else if (c = 'e' || c = 'E') && part.mayScale then
      .next [] (.number .letter { n with exponent := some (false, []) })
    else if (c = '+' || c = '-') && part = .letter then
      .next [] (.number .exponentSign { n with exponent := some (c == '-', []) })
    else if part.mayEnd then
      match begin c with
      | .next ts s => .next (.number n :: ts) s
      | .fail => .next [.number n, .broken] .between
    else .fail

/-- One character in any state. -/
def State.step : State → Char → Step
  | .between, c => begin c
  | .word [] _, _ => .fail
  | .word [last] t, c => if c = last then .next [t] .between else .fail
  | .word (l :: ls) t, c => if c = l then .next [] (.word ls t) else .fail
  | .number part n, c => continueNumber part n c
  | .text ps, c =>
    if c = '"' then .next [.text ps.reverse] .between
    else if c = '\\' then .next [] (.escape ps)
    else if c.toNat < 0x20 then .fail
    else .next [] (.text (.char c :: ps))
  | .escape ps, c =>
    if c = 'u' then .next [] (.code 4 0 ps)
    else match escaped? c with
      | some e => .next [] (.text (.char e :: ps))
      | none => .fail
  | .code left unit ps, c => match hexDigit? c with
    | some d =>
      let unit := unit * 16 + d
      if left ≤ 1 then .next [] (.text (.ofUnit unit :: ps)) else .next [] (.code (left - 1) unit ps)
    | none => .fail

/-- The tokens that the end of the text completes. -/
def State.finish : State → List Token
  | .between => []
  | .number part n => if part.mayEnd then [.number n] else [.broken]
  | _ => [.broken]

/-- The tokens of the rest of a text. -/
def State.run (s : State) : List Char → List Token
  | [] => s.finish
  | c :: cs => match s.step c with
    | .next ts s' => ts ++ s'.run cs
    | .fail => [.broken]

/-- The tokens of a text. What follows a `broken` token is of no account. -/
def tokens (text : String) : List Token := State.run .between text.toList

/-! ## Text tokens -/

/-- The characters of a text token; none if a surrogate stands without its partner. -/
def Piece.decode : List Piece → Option (List Char)
  | [] => some []
  | .char c :: ps => (decode ps).map (c :: ·)
  | .surrogate h :: .surrogate l :: ps =>
    if h < 0xDC00 && 0xDC00 ≤ l then
      (decode ps).map (Char.ofNat (0x10000 + (h - 0xD800) * 0x400 + (l - 0xDC00)) :: ·)
    else none
  | .surrogate _ :: _ => none

end Scaffold.Json
