import Scaffold.Settings.Given
import Scaffold.Toml.Document

/-!
# Layers of settings

  A layer holds values under the names of settings. Of two layers the upper one
  decides about every name that it holds. A name with dots or indices behind
  it leads into a value, so what it names is a value with parts.
-/

namespace Scaffold.Settings

/-- Values under the names of settings. -/
abbrev Layer := Dict Given

/-! ## Names that lead into values -/

/-- What has been read of a name. -/
inductive NamePlace where
  /-- A plain name must follow. -/
  | dot
  | name
  /-- An index must follow. -/
  | bracket
  | minus
  | index
  /-- Blanks behind an index. -/
  | padding
  | closed
  deriving DecidableEq

/-- One character of a name that leads into a value. -/
def NamePlace.step : NamePlace → Char → Option NamePlace
  | .dot, c => if Toml.isKeyChar c then some .name else none
  | .name, c =>
    if Toml.isKeyChar c then some .name
    else if c = '.' then some .dot
    else if c = '[' then some .bracket
    else none
  | .bracket, c =>
    if c = ' ' || c = '\t' then some .bracket
    else if c = '-' then some .minus
    else if c.isDigit then some .index
    else none
  | .minus, c => if c.isDigit then some .index else none
  | .index, c =>
    if c.isDigit then some .index
    else if c = ' ' || c = '\t' then some .padding
    else if c = ']' then some .closed
    else none
  | .padding, c =>
    if c = ' ' || c = '\t' then some .padding else if c = ']' then some .closed else none
  | .closed, c => if c = '.' then some .dot else if c = '[' then some .bracket else none

/-- The name consists of a plain name and of dots and indices behind it, and nothing is missing
    at its end. -/
def leads (name : String) : Bool :=
  match name.toList.foldlM NamePlace.step .dot with
  | some .name | some .closed => true
  | _ => false

/-- The setting that a name leads to, and what is given for it. -/
def placed (name : String) (v : Given) : String × Given :=
  let root := name.toList.takeWhile Toml.isKeyChar
  if leads name && root.length < name.length then (String.ofList root, .compound) else (name, v)

namespace Layer

/-- The layer of given values; of two for one setting the later one counts. -/
def ofList (es : List (String × Given)) : Layer := Dict.ofList (es.map fun e => placed e.1 e.2)

/-- Two layers, one above the other. -/
def below (lower upper : Layer) : Layer := lower.insertAll upper.entries

/-! ## Files -/

/-- The layer of a TOML text. Its whole numbers must be ones that 64 bits hold. -/
def ofToml? (text : String) : Option Layer := do
  let es ← Toml.read text
  if Toml.entriesPass Decimal.fitsWord es then
    return ofList (es.map fun e => (e.1, Given.ofToml e.2))
  else none

/-- The layer of a JSON text, which must hold an object. -/
def ofJson? (text : String) : Option Layer := do
  match ← Json.Tree.whole? text with
  | .object members _ =>
    let es ← members.mapM fun (key, t) => do
      return (String.ofList (← Json.Piece.decode key), Given.ofJson t)
    return ofList es
  | _ => none

end Layer

/-! ## Environments -/

/-- Environment variables and their values. -/
abbrev Environment := Dict String

/-- What the names of variables for settings begin with, in any letter case. -/
def variableStart : String := "crudgen_codegen_"

/-- The setting of a variable. -/
def settingOf? (name : String) : Option String :=
  let name := Text.lowerChars name.toList
  if variableStart.toList.isPrefixOf name then
    some (String.ofList (name.drop variableStart.length))
  else none

/-- The layer of an environment. -/
def Layer.ofEnvironment (env : Environment) : Layer :=
  .ofList (env.entries.filterMap fun e =>
    (settingOf? e.1).map fun name => (name, Given.ofVariable e.2))

end Scaffold.Settings
