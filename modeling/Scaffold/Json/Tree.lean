import Scaffold.Json.Token

/-!
# Document trees

  A token list has one document tree, whatever is wrong with it: an array or
  an object that is not closed says so, and a value that is no value is
  `broken`. In such a tree everything that stands before the first fault is
  kept, so a reader that walks the tree from left to right meets the first
  fault first. Trees are built with a stack of unfinished arrays and objects,
  by recursion on the token list.
-/

namespace Scaffold.Json

/-- A document tree. -/
inductive Tree where
  | null
  | bool (b : Bool)
  | number (n : Numeral)
  | text (pieces : List Piece)
  | array (items : List Tree) (closed : Bool)
  | object (members : List (List Piece × Tree)) (closed : Bool)
  | broken

mutual

/-- No fault anywhere in the tree. -/
def Tree.intact : Tree → Bool
  | .null | .bool _ | .number _ | .text _ => true
  | .array items closed => closed && intactItems items
  | .object members closed => closed && intactMembers members
  | .broken => false

/-- No fault in any item. -/
def intactItems : List Tree → Bool
  | [] => true
  | t :: ts => t.intact && intactItems ts

/-- No fault in any member's value. -/
def intactMembers : List (List Piece × Tree) → Bool
  | [] => true
  | (_, t) :: ms => t.intact && intactMembers ms

end

/-! ## Building -/

/-- An unfinished array or object; items and members are kept in reverse. -/
inductive Frame where
  | array (items : List Tree)
  | object (members : List (List Piece × Tree)) (key : List Piece)

/-- A value that has just been completed inside a frame, the frame left open for good. -/
def Frame.cut (value : Tree) : Frame → Tree
  | .array items => .array (value :: items).reverse false
  | .object members key => .object ((key, value) :: members).reverse false

/-- The tree of the whole document when nothing more can be read. -/
def abandon (value : Tree) (frames : List Frame) : Tree := frames.foldl Frame.cut value

/-- What may come next. -/
inductive Expect where
  /-- A value, for the innermost frame. -/
  | value
  /-- The first item of an array, or its end. -/
  | item
  /-- The first key of an object, or its end. -/
  | key
  /-- A key behind a comma. -/
  | nextKey (members : List (List Piece × Tree))
  /-- The colon behind a key. -/
  | colon
  /-- What follows a finished value. -/
  | after (value : Tree)

/-- What a token that begins a value leads to. -/
def Token.begins : Token → Option Expect
  | .null => some (.after .null)
  | .bool b => some (.after (.bool b))
  | .number n => some (.after (.number n))
  | .text ps => some (.after (.text ps))
  | .openArray => some .item
  | .openObject => some .key
  | .closeArray | .closeObject | .comma | .colon | .broken => none

/-- The tree of a token list and the tokens behind it. The frames are the unfinished arrays
    and objects, innermost first. -/
def build : Expect → List Frame → List Token → Tree × List Token
  -- a finished value at the top is the document
  | .after v, [], ts => (v, ts)
  | .after v, .array items :: fs, .comma :: ts => build .value (.array (v :: items) :: fs) ts
  | .after v, .array items :: fs, .closeArray :: ts =>
    build (.after (.array (v :: items).reverse true)) fs ts
  | .after v, .object members key :: fs, .comma :: ts =>
    build (.nextKey ((key, v) :: members)) fs ts
  | .after v, .object members key :: fs, .closeObject :: ts =>
    build (.after (.object ((key, v) :: members).reverse true)) fs ts
  | .after v, f :: fs, _ => (abandon v (f :: fs), [])
  -- the ends of empty arrays and objects
  | .item, fs, .closeArray :: ts => build (.after (.array [] true)) fs ts
  | .key, fs, .closeObject :: ts => build (.after (.object [] true)) fs ts
  -- keys and colons
  | .key, fs, .text k :: ts => build .colon (.object [] k :: fs) ts
  | .key, fs, _ => (abandon (.object [] false) fs, [])
  | .nextKey members, fs, .text k :: ts => build .colon (.object members k :: fs) ts
  | .nextKey members, fs, _ => (abandon (.object members.reverse false) fs, [])
  | .colon, fs, .colon :: ts => build .value fs ts
  | .colon, fs, _ => (abandon .broken fs, [])
  -- values
  | .item, fs, t :: ts => match t.begins with
    | some e => build e (.array [] :: fs) ts
    | none => (abandon .broken (.array [] :: fs), [])
  | .item, fs, [] => (abandon (.array [] false) fs, [])
  | .value, fs, t :: ts => match t.begins with
    | some e => build e fs ts
    | none => (abandon .broken fs, [])
  | .value, fs, [] => (abandon .broken fs, [])
termination_by structural _ _ ts => ts

/-- The document of a token list, if nothing follows it. -/
def Tree.read (ts : List Token) : Tree × List Token := build .value [] ts

end Scaffold.Json
