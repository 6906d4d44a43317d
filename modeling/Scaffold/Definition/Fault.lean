import Scaffold.Association.Kind
import Scaffold.Json.Number
import Scaffold.Storage
import Scaffold.Text.Quoted

/-!
# What can be wrong with a definition

  The causes for which a well-formed document is no acceptable definition,
  each with its wording.
-/

namespace Scaffold.Definition

/-- What stands where something else is expected. -/
inductive Found where
  | null
  | boolean (b : Bool)
  | integer (i : Int)
  | double (negative : Bool) (magnitude : Decimal.Binary64)
  | text (s : String)
  | sequence
  | map
  deriving DecidableEq

/-- The wording of what was found. -/
def Found.describe : Found → String
  | null => "null"
  | boolean b => s!"boolean `{b}`"
  | integer i => s!"integer `{i}`"
  | double negative m => s!"floating point `{Json.doubleText negative m}`"
  | text s => s!"string {Text.quoted s}"
  | sequence => "sequence"
  | map => "map"

/-- A cause. -/
inductive Fault where
  /-- A value of another type than the place asks for. -/
  | wrongType (found : Found) (expected : String)
  /-- An object ends without a field that has no default. -/
  | missing (field : String)
  /-- A field is given for the second time. -/
  | repeated (field : String)
  | unknownStorage (u : Storage.Unknown)
  /-- A positional record ends before the fields that have no default. -/
  | tooShort (length : Nat) (record : String) (fields : Nat)
  | blankModel
  | emptyAttribute
  | emptyAssociation
  | emptyTarget (association : String)
  /-- An association of this kind needs a key that is not given. -/
  | keyRequired (kind : Kind) (key : String)
  deriving DecidableEq

/-- The wording of a cause. -/
def Fault.message : Fault → String
  | wrongType found expected => s!"invalid type: {found.describe}, expected {expected}"
  | missing field => s!"missing field `{field}`"
  | repeated field => s!"duplicate field `{field}`"
  | unknownStorage u => u.message
  | tooShort n record fields => s!"invalid length {n}, expected {record} with {fields} elements"
  | blankModel => "model name is empty"
  | emptyAttribute => "attribute name '' is empty"
  | emptyAssociation => "association name is empty"
  | emptyTarget a => s!"association '{a}' has an empty target"
  | keyRequired kind key => s!"{kind.name} requires {key}"

end Scaffold.Definition
