import Scaffold.Text.Unprintable
import Scaffold.Text.Case

/-!
# Quoted text in messages

  A text is shown between double quotes. A double quote and a backslash take a
  backslash, the common controls take their letter, and every other character
  that would not be seen is written by its number in hexadecimal.
-/

namespace Scaffold.Text

/-- A character that quoted text shows by its number. -/
def isHidden (c : Char) : Bool :=
  if isAscii c then c.toNat < 0x20 || c.toNat == 0x7F else inRanges hiddenRanges c

/-- A number in lower-case hexadecimal digits. -/
def hex (n : Nat) : String := String.ofList (Nat.toDigits 16 n)

/-- A character as it stands in quoted text. -/
def quotedChar (c : Char) : String :=
  if c = '"' then "\\\""
  else if c = '\\' then "\\\\"
  else if c = '\n' then "\\n"
  else if c = '\r' then "\\r"
  else if c = '\t' then "\\t"
  else if c.toNat = 0 then "\\0"
  else if isHidden c then "\\u\x7b" ++ hex c.toNat ++ "\x7d"
  else c.toString

/-- The text between double quotes. -/
def quoted (s : String) : String :=
  "\"" ++ String.join (s.toList.map quotedChar) ++ "\""

end Scaffold.Text
