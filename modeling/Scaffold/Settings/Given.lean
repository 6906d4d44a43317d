import Scaffold.Json.Whole
import Scaffold.Text.Case
import Scaffold.Toml.Value

/-!
# Values that are given for settings

  A value for a setting can come from a file or from an environment variable,
  so it is not always of the type that the setting has. A setting that holds a
  text takes numbers and truth values by their texts, and one that holds a
  truth value takes numbers, all but zero being true, and the usual words.
-/

namespace Scaffold.Settings

open Decimal

/-- A value that is given. -/
inductive Given where
  | null
  | flag (b : Bool)
  | integer (i : Int)
  | double (d : Double)
  | text (s : String)
  /-- A value with parts. -/
  | compound
  deriving DecidableEq

namespace Given

/-! ## What settings take -/

/-- The word of a truth value. -/
def flagText (b : Bool) : String := if b then "true" else "false"

/-- The text for a setting that holds one. -/
def text? : Given → Option String
  | text s => some s
  | flag b => some (flagText b)
  | integer i => some (toString i)
  | double d => some d.text
  | null | compound => none

/-- The truth value of a word, in any letter case. -/
def flagOf? (s : String) : Option Bool :=
  match Text.lower s with
  | "1" | "true" | "on" | "yes" => some true
  | "0" | "false" | "off" | "no" => some false
  | _ => none

/-- The truth value for a setting that holds one. -/
def flag? : Given → Option Bool
  | flag b => some b
  | integer i => some (i != 0)
  | double d => some !d.isZero
  | text s => flagOf? s
  | null | compound => none

/-! ## Where values come from -/

/-- The value of an environment variable: a truth value, a whole number that 64 bits hold, or a
    double, if it can be read as one of these, and a text otherwise. -/
def ofVariable (s : String) : Given :=
  match Text.lower s with
  | "true" => flag true
  | "false" => flag false
  | _ => match (integer? s.toList).filter fitsWord with
    | some i => integer i
    | none => match Double.ofChars? s.toList with
      | some d => double d
      | none => text s

/-- A value of a TOML file. -/
def ofToml : Toml.Value → Given
  | .text s => text s
  | .bool b => flag b
  | .integer i => integer i
  | .double d => double d
  | .moment s => text s
  | .array _ | .table _ _ | .tables _ _ => compound

/-- A value of a JSON file. Whole numbers that 64 bits do not hold with a sign are doubles. -/
def ofJson : Json.Tree → Given
  | .bool b => flag b
  | .number n => match n.value with
    | .integer i => if fitsWord i then integer i else double (.ofInt i)
    | .double negative m => double (.number negative m)
    | .outOfRange => null
  | .text ps => match Json.Piece.decode ps with
    | some cs => text (String.ofList cs)
    | none => null
  | .array _ _ | .object _ _ => compound
  | .null | .broken => null

end Given

end Scaffold.Settings
