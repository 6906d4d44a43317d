import Scaffold.Definition.Loading
import Scaffold.Text.Blank

/-!
# Selection

  Which definitions take part in a run, by the names of their models. A
  definition that cannot be read has no name and always takes part, so that
  its failure is reported.
-/

namespace Scaffold

/-- The models that take part. -/
structure Selection where
  /-- The models that may take part; all of them if there is no list. -/
  included : Option (List String)
  excluded : List String
  deriving DecidableEq

namespace Selection

/-- The names between commas, without blanks around them. -/
def names (list : String) : List String :=
  (Text.splitAt ',' list.toList).map fun piece => String.ofList (Text.trimChars piece)

/-- The selection of two lists of names. A star or nothing at all includes every model. -/
def of (includes excludes : String) : Selection where
  included := if Text.trim includes = "*" || Text.isBlankText includes then none
    else some (names includes)
  excluded := (names excludes).filter (!·.isEmpty)

variable (s : Selection)

/-- A model of that name takes part. -/
def admits (name : String) : Bool :=
  (match s.included with
    | none => true
    | some names => names.contains name) && !s.excluded.contains name

/-- The definition takes part. -/
def keeps (l : Loaded) : Bool :=
  match l.definition with
  | .ok d => s.admits d.name
  | .error _ => true

end Selection

end Scaffold
