import Scaffold.Definition.Reader
import Scaffold.Files.Fault
import Scaffold.Settings.Fault
import Scaffold.Template

/-!
# Failures

  Everything for which an operation of this library fails, by cause, and the
  wording that a user reads.
-/

namespace Scaffold

/-- A cause of failure. -/
inductive Failure where
  /-- A definition is no JSON document; its origin, where that is known. -/
  | notJson (origin : String)
  /-- A definition, or the part that `origin` names, is not acceptable. -/
  | malformed (origin : String) (fault : Definition.Fault)
  /-- An association of a kind that does not exist. -/
  | unsupportedKind (association kind : String)
  /-- An attribute of a type that no column has. -/
  | unsupportedType (primitive : String)
  /-- A template was given data of another template. -/
  | mismatchedContext (template : Template)
  | write (path : String) (fault : Files.Fault)
  | settings (fault : Settings.Fault)
  | invalidSettings (cause : Settings.Invalid)
  | files (fault : Files.Fault)
  /-- A run went through with that many failures on its way. -/
  | incomplete (failures : Nat)
  /-- There is no time behind the last one that was given to a migration. -/
  | endOfCalendar
  deriving DecidableEq

/-- The wording of a failure. -/
def Failure.message : Failure → String
  | notJson origin => s!"Failed to parse model definition: {origin}"
  | malformed origin fault => s!"Malformed definition {origin}: {fault.message}"
  | unsupportedKind association kind =>
    s!"Association type {kind} not supported (association '{association}')"
  | unsupportedType primitive => s!"Unsupported data type: {primitive}"
  | mismatchedContext template =>
    s!"Template error: {template.name} rendered with a mismatched context"
  | write path fault => s!"Failed to write {path}: {fault.message}"
  | settings fault => s!"Configuration error: {fault.message}"
  | invalidSettings cause => s!"Validation error: {cause.message}"
  | files fault => s!"IO error: {fault.message}"
  | incomplete n => s!"Generation finished with {n} failure(s)"
  | endOfCalendar => "There is no later time for a migration"

/-- The failure of a definition of that origin. -/
def Failure.ofReading (origin : String) : Json.ReadError Definition.Fault → Failure
  | .notJson => .notJson origin
  | .content fault => .malformed origin fault

/-- The definition that a text of that origin holds. -/
def Definition.parseFrom (origin text : String) : Except Failure Definition :=
  (Definition.parse text).mapError (Failure.ofReading origin)

/-- The definition that a text holds, whatever its names; a fault of any kind makes it unreadable. -/
def Definition.parseUnchecked (origin text : String) : Except Failure Definition :=
  (Definition.ofText text).mapError fun _ => .notJson origin

end Scaffold
