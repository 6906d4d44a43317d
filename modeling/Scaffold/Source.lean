/-!
# Layout of source text

  Source text is a list of lines, each on a level of nesting. Blocks put
  braces around lines and move them one level in; a blank line stays empty on
  every level.
-/

namespace Scaffold

/-- A line of source text. -/
inductive Source.Line where
  | blank
  | code (level : Nat) (text : String)
  deriving DecidableEq

/-- Source text as lines. -/
abbrev Source := List Source.Line

namespace Source

/-- Lines on the outermost level. -/
def lines (texts : List String) : Source := texts.map (Line.code 0)

/-- A blank line. -/
def gap : Source := [Line.blank]

/-- The line one level further in. -/
def Line.deeper : Line → Line
  | blank => blank
  | code level text => code (level + 1) text

/-- The lines one level further in. -/
def indent (s : Source) : Source := s.map Line.deeper

/-- Lines between braces, behind `head` and before `tail`. -/
def block (head : String) (body : Source) (tail : String := "") : Source :=
  lines [head ++ "\x7b"] ++ indent body ++ lines ["\x7d" ++ tail]

/-- Blocks with a blank line between each two. -/
def spaced (blocks : List Source) : Source := gap.intercalate blocks

/-- A line of text with `width` blanks for each level, and its line break. -/
def Line.text (width : Nat) : Line → String
  | blank => "\n"
  | code level text => String.ofList (List.replicate (width * level) ' ') ++ text ++ "\n"

/-- The text of the lines. -/
def text (width : Nat) (s : Source) : String := String.join (s.map (Line.text width))

end Source

end Scaffold
