import Scaffold.Toml.Scalar
import Scaffold.Toml.Token

/-!
# Documents of TOML

  A document is read by an automaton over its tokens. Its state is the
  document so far, the header that stands above, what may come next, and a
  stack of the arrays and inline tables that are not closed yet. A word that
  is no key may go on behind a dot, and a date behind one blank with a time,
  so a word becomes a value only when the next token has been seen.
-/

namespace Scaffold.Toml

/-- The parts of a key between dots, last part first. -/
abbrev Key := List String

/-- An array or inline table that is not closed yet. -/
inductive Frame where
  /-- The items so far, in reverse. -/
  | array (items : List Value)
  /-- The entries so far. -/
  | table (entries : Entries)
  /-- The entries so far, and the key of the value that is being read. -/
  | member (entries : Entries) (key : Key)

/-- What a key is read for. -/
inductive Purpose where
  /-- A value under a key. -/
  | pair
  /-- The header of a table. -/
  | header
  /-- The header of one more table of an array. -/
  | nextHeader
  deriving DecidableEq

/-- What may come next. -/
inductive Expect where
  /-- Anything that begins a line. -/
  | line
  /-- Nothing up to the end of the line. -/
  | lineEnd
  /-- A header, of which the first bracket has been read. -/
  | header
  /-- A part of a key. -/
  | part (purpose : Purpose) (before : Key)
  /-- What follows a part of a key. -/
  | parted (purpose : Purpose) (key : Key)
  /-- The second bracket that closes a header. -/
  | closing (key : Key)
  /-- A value behind a key. -/
  | value
  /-- The rest of a word, and whether a blank follows that a time could follow. -/
  | word (cs : List Char) (gap : Bool)
  /-- An item of an array, or its end. -/
  | item
  /-- A key of an inline table, or its end. -/
  | memberKey
  /-- A comma, or the end of the innermost array or inline table. -/
  | separator

/-- The state of a reader. -/
structure Reader where
  document : Entries
  /-- The header above; it is empty at the front of the document. -/
  above : Key
  /-- The key on the present line. -/
  key : Key
  frames : List Frame
  expect : Expect

namespace Reader

/-- The reader before the first token. -/
def start : Reader := ⟨[], [], [], [], .line⟩

/-- How deep arrays and inline tables may stand in one another. -/
def depthLimit : Nat := 80

variable (r : Reader)

/-- The reader that expects something else. -/
def expecting (e : Expect) : Reader := { r with expect := e }

/-- The reader inside one more array or inline table. -/
def enter (f : Frame) (e : Expect) : Option Reader :=
  if r.frames.length < depthLimit then some { r with frames := f :: r.frames, expect := e }
  else none

/-- Add a value under a key to entries. -/
def add (key : Key) (v : Value) (es : Entries) : Option Entries :=
  match key with
  | [] => none
  | last :: path => es.addPair path.reverse last v

/-- A value is complete: it goes to where it stands. -/
def give (v : Value) : Option Reader :=
  match r.frames with
  | [] => do
    let document ← r.document.atHeader r.above.reverse (add r.key v)
    return { r with document, expect := .lineEnd }
  | .array items :: fs => some { r with frames := .array (v :: items) :: fs, expect := .separator }
  | .member es key :: fs => do
    return { r with frames := .table (← add key v es) :: fs, expect := .separator }
  | .table _ :: _ => none

/-- The innermost array or inline table is closed. -/
def close (bracket : Token) : Option Reader :=
  match r.frames, bracket with
  | .array items :: fs, .closeSquare => give { r with frames := fs } (.array items.reverse)
  | .table es :: fs, .closeCurly => give { r with frames := fs } (.table .inline es)
  | _, _ => none

/-- A header is complete. -/
def head (purpose : Purpose) (key : Key) : Option Reader :=
  match key with
  | [] => none
  | last :: path => do
    let document ← if purpose = .nextHeader then r.document.openNext path.reverse last
      else r.document.openTable path.reverse last
    return { r with document, above := key, expect := .lineEnd }

/-! ## Keys -/

/-- A part of a key. -/
def part? : Token → Option String
  | .word cs => if cs.all isKeyChar then some (String.ofList cs) else none
  | .text false cs => some (String.ofList cs)
  | _ => none

/-- A part of a key, behind the parts before it. -/
def readPart (purpose : Purpose) (before : Key) (t : Token) : Option Reader :=
  (part? t).map fun p => r.expecting (.parted purpose (p :: before))

/-- The equals sign behind a key. -/
def assign (key : Key) : Option Reader :=
  match r.frames with
  | .table es :: fs => some { r with frames := .member es key :: fs, expect := .value }
  | _ => some { r with key, expect := .value }

/-! ## Steps -/

/-- The first token of a value. -/
def beginValue : Token → Option Reader
  | .text _ cs => r.give (.text (String.ofList cs))
  | .word cs => some (r.expecting (.word cs false))
  | .openSquare => r.enter (.array []) .item
  | .openCurly => r.enter (.table []) .memberKey
  | _ => none

/-- A token behind a complete value. -/
def afterValue (t : Token) : Option Reader :=
  match r.expect, t with
  | _, .blank _ => some r
  | .lineEnd, .newline => some (r.expecting .line)
  | .separator, .newline => some r
  | .separator, .comma => match r.frames with
    | .array _ :: _ => some (r.expecting .item)
    | .table _ :: _ => some (r.expecting .memberKey)
    | _ => none
  | .separator, t => r.close t
  | _, _ => none

/-- A token behind a word. -/
def afterWord (cs : List Char) (gap : Bool) (t : Token) : Option Reader :=
  let finish := do (← r.give (← Value.ofWord? cs)).afterValue t
  match t with
  | .dot => if gap then none else some (r.expecting (.word (cs ++ ['.']) false))
  | .word more =>
    if gap then some (r.expecting (.word (cs ++ ' ' :: more) false))
    else if cs.getLast? = some '.' then some (r.expecting (.word (cs ++ more) false))
    else none
  | .blank ' ' =>
    if !gap && (date? cs).any (·.2.isEmpty) then some (r.expecting (.word cs true)) else finish
  | _ => finish

/-- One token. -/
def step (t : Token) : Option Reader :=
  match r.expect, t with
  | .line, .newline => some r
  | .line, .blank _ => some r
  | .line, .openSquare => some (r.expecting .header)
  | .line, t => r.readPart .pair [] t
  | .lineEnd, t => r.afterValue t
  | .header, .openSquare => some (r.expecting (.part .nextHeader []))
  | .header, .blank _ => some (r.expecting (.part .header []))
  | .header, t => r.readPart .header [] t
  | .part _ _, .blank _ => some r
  | .part purpose before, t => r.readPart purpose before t
  | .parted _ _, .blank _ => some r
  | .parted purpose key, .dot => some (r.expecting (.part purpose key))
  | .parted .pair key, .equals => r.assign key
  | .parted .header key, .closeSquare => r.head .header key
  | .parted .nextHeader key, .closeSquare => some (r.expecting (.closing key))
  | .parted _ _, _ => none
  | .closing key, .closeSquare => r.head .nextHeader key
  | .closing _, _ => none
  | .value, .blank _ => some r
  | .value, t => r.beginValue t
  | .word cs gap, t => r.afterWord cs gap t
  | .item, .blank _ => some r
  | .item, .newline => some r
  | .item, .closeSquare => r.close .closeSquare
  | .item, t => r.beginValue t
  | .memberKey, .blank _ => some r
  | .memberKey, .newline => some r
  | .memberKey, .closeCurly => r.close .closeCurly
  | .memberKey, t => r.readPart .pair [] t
  | .separator, t => r.afterValue t

/-- The document, if it may end here. A line break at its end is of no account. -/
def finish : Option Entries := do
  let r ← r.step .newline
  match r.expect with
  | .line => return r.document
  | _ => none

end Reader

/-- The document that a text holds. -/
def read (text : String) : Option Entries := do
  let r ← (← tokens text).foldlM Reader.step Reader.start
  r.finish

end Scaffold.Toml
