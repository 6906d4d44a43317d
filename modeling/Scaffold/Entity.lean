import Scaffold.Association.Classification

/-!
# Entities

  A definition together with the classification of its associations: all that
  is known of an entity when source text is generated from it. The spellings
  of its name follow from the name alone.
-/

namespace Scaffold

open Naming
open Json (Value)

/-- An entity ready for generation. -/
structure Entity where
  name : String
  storage : Storage
  attributes : Attributes
  associations : Classification
  indices : List String
  deriving DecidableEq

namespace Entity

/-- Assemble an entity from its definition. -/
def ofDefinition (policy : Policy) (d : Definition) : Except Failure Entity := do
  let associations ← Classification.of d.storage policy d.associations
  return { name := d.name, storage := d.storage, attributes := d.attributes, associations,
           indices := d.indices }

variable (e : Entity)

/-! ## Spellings -/

def nameCp : String := capitalize e.name
def nameLc : String := uncapitalize e.name
def namePl : String := pluralize e.nameLc
def namePlCp : String := pluralize e.nameCp

/-- The table that holds the records. -/
def table : String := e.namePl

/-- The entity has a table. -/
def isRelational : Bool := e.storage.isRelational

/-- The arguments of the mutations that write a record: attributes, then foreign keys. -/
def arguments : List (String × String) :=
  e.attributes.entries ++ e.associations.foreignKeys.entries

/-- The arguments as a parameter list. -/
def mutationArguments : String := Attributes.parameters e.arguments

/-- The entity as JSON. -/
def value : Value :=
  .object [("name", .text e.name), ("nameCp", .text e.nameCp), ("nameLc", .text e.nameLc),
    ("namePl", .text e.namePl), ("namePlCp", .text e.namePlCp),
    ("storageType", .text e.storage.name), ("table", .text e.table),
    ("attributes", .object (e.attributes.entries.map fun (k, v) => (k, .text v))),
    ("attributesStr", .text e.attributes.flat),
    ("arrayAttributeString", .array (e.attributes.texts.map .text)),
    ("associations", e.associations.value),
    ("indices", .array (e.indices.map .text))]

end Entity

end Scaffold
