import Scaffold.Json.Number
import Scaffold.Json.Tree

/-!
# Documents that are kept as a whole

  A document of which every value is kept must be sound in all its parts:
  nothing is broken or left open, every text has its characters, every number
  is in range, and arrays and objects stand in one another only so deep.
-/

namespace Scaffold.Json

mutual

/-- The tree is sound in all its parts, and no more than so many levels deep. -/
def Tree.isWhole : Nat → Tree → Bool
  | _, .null => true
  | _, .bool _ => true
  | _, .number n => n.value != .outOfRange
  | _, .text ps => (Piece.decode ps).isSome
  | 0, .array _ _ => false
  | 0, .object _ _ => false
  | levels + 1, .array items closed => closed && itemsWhole levels items
  | levels + 1, .object members closed => closed && membersWhole levels members
  | _, .broken => false

/-- All items are sound. -/
def itemsWhole : Nat → List Tree → Bool
  | _, [] => true
  | levels, t :: ts => t.isWhole levels && itemsWhole levels ts

/-- All keys and values are sound. -/
def membersWhole : Nat → List (List Piece × Tree) → Bool
  | _, [] => true
  | levels, (key, t) :: ms =>
    (Piece.decode key).isSome && t.isWhole levels && membersWhole levels ms

end

/-- The most levels that are read. -/
def levelLimit : Nat := 127

/-- The document that a text holds, sound in all its parts, if nothing follows it. -/
def Tree.whole? (text : String) : Option Tree :=
  let (t, rest) := Tree.read (tokens text)
  if rest.isEmpty && t.isWhole levelLimit then some t else none

end Scaffold.Json
