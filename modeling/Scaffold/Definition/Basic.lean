import Scaffold.Attributes
import Scaffold.Storage
import Scaffold.Json.Value

/-!
# Entity definitions

  What is declared of one entity: its name, where its records live, its
  attributes, its associations with other entities, and the columns to be
  indexed. A definition is written as JSON in declaration order; keys of an
  association that are not given are left out.
-/

namespace Scaffold

/-- One declared association. -/
structure Association.Spec where
  /-- The kind as it was declared; only classification says whether there is such a kind. -/
  kind : String
  target : String
  targetStorage : Storage
  /-- The foreign key attribute. -/
  targetKey : Option String := none
  /-- The owner's key in a join table. -/
  sourceKey : Option String := none
  /-- The join table. -/
  keysIn : Option String := none
  deriving DecidableEq

/-- One declared entity. -/
structure Definition where
  name : String
  storage : Storage
  attributes : Attributes
  associations : Dict Association.Spec
  indices : List String
  deriving DecidableEq

/-! ## Writing -/

open Json (Value)

/-- A member for a key that is given. -/
def Association.Spec.optional (key : String) : Option String → List (String × Value)
  | some v => [(key, .text v)]
  | none => []

/-- An association as JSON. -/
def Association.Spec.value (s : Association.Spec) : Value :=
  .object ([("type", .text s.kind), ("target", .text s.target),
    ("targetStorageType", .text s.targetStorage.name)] ++
    optional "targetKey" s.targetKey ++ optional "sourceKey" s.sourceKey ++
    optional "keysIn" s.keysIn)

/-- A definition as JSON. -/
def Definition.value (d : Definition) : Value :=
  .object [("model", .text d.name), ("storageType", .text d.storage.name),
    ("attributes", .object (d.attributes.entries.map fun (k, v) => (k, .text v))),
    ("associations", .object (d.associations.entries.map fun (k, s) => (k, s.value))),
    ("indices", .array (d.indices.map .text))]

end Scaffold
