import Scaffold.Json.Token

/-!
# TOML tokens

  A text is cut into tokens by an automaton that reads one character at a
  time; comments leave no token. Blanks are kept, because a header closes with
  brackets that touch. Quoted text comes in four forms: between one or three
  quotes, and with backslashes that mean something or not. Three quotes close
  a text together with up to two quotes before them, so the automaton counts
  quotes until another character comes.
-/

namespace Scaffold.Toml

/-- The two quotes. -/
inductive Quote where
  /-- Backslashes have a meaning. -/
  | double
  /-- Nothing but the quote has a meaning. -/
  | single
  deriving DecidableEq

/-- The character of a quote. -/
def Quote.char : Quote → Char
  | double => '"'
  | single => '\''

/-- A token. -/
inductive Token where
  | newline
  | blank (c : Char)
  | equals
  | dot
  | comma
  | openSquare
  | closeSquare
  | openCurly
  | closeCurly
  /-- A run of characters that mean nothing by themselves. -/
  | word (cs : List Char)
  /-- Quoted text; `long` between three quotes. -/
  | text (long : Bool) (cs : List Char)
  deriving DecidableEq

/-! ## Characters -/

/-- Characters that may stand in texts and comments: the tab and whatever is no control. -/
def isPlain (c : Char) : Bool := c == '\t' || (0x20 ≤ c.toNat && c.toNat != 0x7F)

/-- Characters of keys that are not quoted. -/
def isKeyChar (c : Char) : Bool := c.isAlphanum || c == '_' || c == '-'

/-- The token of a character that is one by itself. -/
def single? (c : Char) : Option Token :=
  match c with
  | '\n' => some .newline
  | ' ' | '\t' | '\r' => some (.blank c)
  | '=' => some .equals
  | '.' => some .dot
  | ',' => some .comma
  | '[' => some .openSquare
  | ']' => some .closeSquare
  | '{' => some .openCurly
  | '}' => some .closeCurly
  | _ => none

/-- What follows a backslash. -/
inductive Escape where
  | char (c : Char)
  /-- A character is given by its number, in that many hexadecimal digits. -/
  | digits (n : Nat)
  deriving DecidableEq

/-- The meaning of a character behind a backslash. -/
def Escape.of? (c : Char) : Option Escape :=
  match c with
  | '"' => some (char '"')
  | '\\' => some (char '\\')
  | 'b' => some (char '\x08')
  | 'e' => some (char '\x1b')
  | 'f' => some (char '\x0c')
  | 'n' => some (char '\n')
  | 'r' => some (char '\r')
  | 't' => some (char '\t')
  | 'x' => some (digits 2)
  | 'u' => some (digits 4)
  | 'U' => some (digits 8)
  | _ => none

/-- The character of a number, if it is one. -/
def charOf? (n : Nat) : Option Char := if n.isValidChar then some (Char.ofNat n) else none

/-! ## The automaton -/

/-- What has been read of the present token; its characters are kept in reverse. -/
inductive State where
  /-- No token has been begun. -/
  | between
  | comment
  | word (cs : List Char)
  /-- Behind the first quote of a text. -/
  | opened (q : Quote)
  /-- Behind two quotes: an empty text, or the beginning of a long one. -/
  | openedTwice (q : Quote)
  /-- Between single quotes. -/
  | short (q : Quote) (cs : List Char)
  /-- Between three quotes; `fresh` if a line break is not counted, and the quotes before. -/
  | long (q : Quote) (fresh : Bool) (quotes : Nat) (cs : List Char)
  /-- Behind a backslash. -/
  | escape (isLong : Bool) (cs : List Char)
  /-- A number behind a backslash that still needs `left` digits. -/
  | code (isLong : Bool) (left : Nat) (n : Nat) (cs : List Char)
  /-- Blanks behind a backslash, which go up to the next line at least. -/
  | folded (newline : Bool) (cs : List Char)
  deriving DecidableEq

/-- Tokens that are complete, and the state behind a character. There is no step where the
    character cannot stand. -/
abbrev Step := Option (List Token × State)

/-- A character between tokens. -/
def begin (c : Char) : List Token × State :=
  match single? c with
  | some t => ([t], .between)
  | none =>
    if c = '#' then ([], .comment)
    else if c = '"' then ([], .opened .double)
    else if c = '\'' then ([], .opened .single)
    else ([], .word [c])

/-- A token that the character before `c` has completed. -/
def completing (t : Token) (c : Char) : Step :=
  let (ts, s) := begin c
  some (t :: ts, s)

/-- A character between single quotes. -/
def continueShort (q : Quote) (cs : List Char) (c : Char) : Step :=
  if c = q.char then some ([.text false cs.reverse], .between)
  else if q = .double && c = '\\' then some ([], .escape false cs)
  else if isPlain c then some ([], .short q (c :: cs))
  else none

/-- A character between three quotes. -/
def continueLong (q : Quote) (fresh : Bool) (quotes : Nat) (cs : List Char) (c : Char) : Step :=
  if c = q.char then (if quotes = 5 then none else some ([], .long q false (quotes + 1) cs))
  else
    let inner := List.replicate (if quotes < 3 then quotes else quotes - 3) q.char ++ cs
    if 3 ≤ quotes then completing (.text true inner.reverse) c
    else if fresh && c = '\r' then some ([], .long q true 0 inner)
    else if fresh && c = '\n' then some ([], .long q false 0 inner)
    else if q = .double && c = '\\' then some ([], .escape true inner)
    else if isPlain c || c = '\n' || c = '\r' then some ([], .long q false 0 (c :: inner))
    else none

/-- The state inside a text with backslashes. -/
def inside (isLong : Bool) (cs : List Char) : State :=
  if isLong then .long .double false 0 cs else .short .double cs

/-- One character in any state. -/
def State.step : State → Char → Step
  | .between, c => some (begin c)
  | .comment, c =>
    if c = '\n' then some (begin c) else if isPlain c || c = '\r' then some ([], .comment) else none
  | .word cs, c =>
    if (single? c).isSome || c = '#' || c = '"' || c = '\'' then
      completing (.word cs.reverse) c
    else some ([], .word (c :: cs))
  | .opened q, c => if c = q.char then some ([], .openedTwice q) else continueShort q [] c
  | .openedTwice q, c =>
    if c = q.char then some ([], .long q true 0 []) else completing (.text false []) c
  | .short q cs, c => continueShort q cs c
  | .long q fresh quotes cs, c => continueLong q fresh quotes cs c
  | .escape isLong cs, c => match Escape.of? c with
    | some (.char e) => some ([], inside isLong (e :: cs))
    | some (.digits n) => some ([], .code isLong n 0 cs)
    | none =>
      if !isLong then none
      else if c = '\n' then some ([], .folded true cs)
      else if c = ' ' || c = '\t' || c = '\r' then some ([], .folded false cs)
      else none
  | .code isLong left n cs, c => do
    let n := n * 16 + (← Json.hexDigit? c)
    if left ≤ 1 then return ([], inside isLong ((← charOf? n) :: cs))
    else return ([], .code isLong (left - 1) n cs)
  | .folded newline cs, c =>
    if c = '\n' then some ([], .folded true cs)
    else if c = ' ' || c = '\t' || c = '\r' then some ([], .folded newline cs)
    else if newline then continueLong .double false 0 cs c
    else none

/-- The tokens that the end of the text completes. -/
def State.finish : State → Option (List Token)
  | .between | .comment => some []
  | .word cs => some [.word cs.reverse]
  | .openedTwice _ => some [.text false []]
  | .long q _ quotes cs =>
    if quotes < 3 then none
    else some [.text true (List.replicate (quotes - 3) q.char ++ cs).reverse]
  | _ => none

/-- The tokens of the rest of a text. -/
def State.run (s : State) : List Char → Option (List Token)
  | [] => s.finish
  | c :: cs => do
    let (ts, s') ← s.step c
    return ts ++ (← s'.run cs)

/-- A carriage return stands before a line feed only. -/
def returnsPaired : List Char → Bool
  | [] => true
  | ['\r'] => false
  | '\r' :: '\n' :: cs => returnsPaired cs
  | c :: cs => c != '\r' && returnsPaired cs

/-- The mark that may stand in front of a document. -/
def mark : Char := '\uFEFF'

/-- The tokens of a document. -/
def tokens (text : String) : Option (List Token) :=
  let cs := match text.toList with
    | c :: cs => if c = mark then cs else c :: cs
    | [] => []
  if returnsPaired cs then State.run .between cs else none

end Scaffold.Toml
