import Scaffold.Dict

/-!
# Attributes of an entity

  Attribute names and their primitive types, in declaration order, and the two
  spellings of them that generated code holds. Every entity has an identifier
  attribute, declared or not.
-/

namespace Scaffold

/-- Attribute names with their primitive types, in declaration order. -/
abbrev Attributes := Dict String

namespace Attributes

/-- The identifier attribute, which every entity carries. -/
def identifier : String := "id"

/-- The primitive type that is treated as text. -/
def textType : String := "String"

/-- Names and types as a parameter list. -/
def parameters (entries : List (String × String)) : String :=
  ", ".intercalate (entries.map fun (name, type) => s!"{name}: {type}")

/-- The attributes as a parameter list. -/
def flat (attributes : Attributes) : String := parameters attributes.entries

/-- The attributes other than the identifier. -/
def others (attributes : Attributes) : List (String × String) :=
  attributes.entries.filter fun (name, _) => name != identifier

/-- The identifier and the names of the other text attributes. -/
def texts (attributes : Attributes) : List String :=
  identifier :: (attributes.others.filter fun (_, type) => type == textType).map Prod.fst

end Attributes

end Scaffold
