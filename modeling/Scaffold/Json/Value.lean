import Scaffold.Text.Quoted

/-!
# Writing JSON

  The values that this library writes as JSON, and their two texts: the
  compact one without any white space, and the pretty one with an indent of two
  blanks for each level. Members keep the order in which they are given.
-/

namespace Scaffold.Json

/-- A value to be written. -/
inductive Value where
  | null
  | text (s : String)
  | array (items : List Value)
  | object (members : List (String × Value))

namespace Value

/-- A text, or null in its absence. -/
def ofText? : Option String → Value
  | some s => text s
  | none => null

/-- Four hexadecimal digits. -/
def hex4 (n : Nat) : String :=
  let digits := Text.hex n
  String.ofList (List.replicate (4 - digits.length) '0') ++ digits

/-- One character of a text. Quotes, backslashes and controls are escaped, nothing else is. -/
def escape (c : Char) : String :=
  match c with
  | '"' => "\\\""
  | '\\' => "\\\\"
  | '\x08' => "\\b"
  | '\x0c' => "\\f"
  | '\n' => "\\n"
  | '\r' => "\\r"
  | '\t' => "\\t"
  | c => if c.toNat < 0x20 then "\\u" ++ hex4 c.toNat else c.toString

/-- A text between quotes. -/
def quote (s : String) : String := "\"" ++ String.join (s.toList.map escape) ++ "\""

mutual

/-- The text without white space. -/
def compact : Value → String
  | null => "null"
  | text s => quote s
  | array items => "[" ++ ",".intercalate (compactItems items) ++ "]"
  | object members => "\x7b" ++ ",".intercalate (compactMembers members) ++ "\x7d"

/-- The texts of the items of an array. -/
def compactItems : List Value → List String
  | [] => []
  | v :: vs => v.compact :: compactItems vs

/-- The texts of the members of an object. -/
def compactMembers : List (String × Value) → List String
  | [] => []
  | (k, v) :: ms => (quote k ++ ":" ++ v.compact) :: compactMembers ms

end

/-- A line break and the indent of a level. -/
def newLine (level : Nat) : String := "\n" ++ String.ofList (List.replicate (2 * level) ' ')

/-- Parts of an array or object on lines of their own; nothing between the brackets if empty. -/
def block (opening closing : String) (level : Nat) (parts : List String) : String :=
  if parts.isEmpty then opening ++ closing
  else opening ++ newLine (level + 1) ++ ("," ++ newLine (level + 1)).intercalate parts ++
    newLine level ++ closing

mutual

/-- The text on several lines, for a value that stands on the given level. -/
def prettyAt (level : Nat) : Value → String
  | null => "null"
  | text s => quote s
  | array items => block "[" "]" level (prettyItems (level + 1) items)
  | object members => block "\x7b" "\x7d" level (prettyMembers (level + 1) members)

/-- The texts of the items of an array. -/
def prettyItems (level : Nat) : List Value → List String
  | [] => []
  | v :: vs => v.prettyAt level :: prettyItems level vs

/-- The texts of the members of an object. -/
def prettyMembers (level : Nat) : List (String × Value) → List String
  | [] => []
  | (k, v) :: ms => (quote k ++ ": " ++ v.prettyAt level) :: prettyMembers level ms

end

/-- The text on several lines. -/
def pretty (v : Value) : String := v.prettyAt 0

end Value

end Scaffold.Json
