/-!
# Blank characters

  The white space of the Unicode standard, trimming it from both ends of a
  text, and the words between it.
-/

namespace Scaffold.Text

/-- White space: the tab to carriage return controls, the spaces and the separators. -/
def isBlank (c : Char) : Bool :=
  let n := c.toNat
  (9 ≤ n && n ≤ 13) || n == 0x20 || n == 0x85 || n == 0xA0 || n == 0x1680 ||
    (0x2000 ≤ n && n ≤ 0x200A) || n == 0x2028 || n == 0x2029 || n == 0x202F ||
    n == 0x205F || n == 0x3000

/-- The characters without the blanks at either end. -/
def trimChars (cs : List Char) : List Char :=
  ((cs.dropWhile isBlank).reverse.dropWhile isBlank).reverse

/-- The text without the blanks at either end. -/
def trim (s : String) : String := String.ofList (trimChars s.toList)

/-- Nothing but blanks. -/
def isBlankText (s : String) : Bool := s.toList.all isBlank

/-- The maximal runs of characters that fail `sep`, where `word` has been read in reverse. -/
def splitRuns (sep : Char → Bool) (word : List Char) : List Char → List (List Char)
  | [] => if word.isEmpty then [] else [word.reverse]
  | c :: cs =>
    if sep c then
      (if word.isEmpty then splitRuns sep [] cs else word.reverse :: splitRuns sep [] cs)
    else splitRuns sep (c :: word) cs

/-- The words between blanks. -/
def words (s : String) : List String := (splitRuns isBlank [] s.toList).map String.ofList

/-- What stands before and behind the first character that passes a test, if one does. -/
def cut (p : Char → Bool) (cs : List Char) : List Char × Option (List Char) :=
  match cs.dropWhile (!p ·) with
  | [] => (cs, none)
  | _ :: behind => (cs.takeWhile (!p ·), some behind)

/-- The pieces between single separators: one more than there are separators. -/
def splitAt (sep : Char) : List Char → List (List Char)
  | [] => [[]]
  | c :: cs =>
    if c = sep then [] :: splitAt sep cs
    else match splitAt sep cs with
      | piece :: pieces => (c :: piece) :: pieces
      | [] => [[c]]

end Scaffold.Text
