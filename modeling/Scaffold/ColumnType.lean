/-!
# Column types

  The type of a column in the generated model and migrations, and the
  primitive types of attributes that have one. The names of primitives match
  letter for letter.
-/

namespace Scaffold

/-- The type of a column. -/
inductive ColumnType where
  | string
  | integer
  | float
  | boolean
  | dateOnly
  | date
  | time
  | json
  deriving DecidableEq

namespace ColumnType

/-- The type as it is written in generated code. -/
def expression : ColumnType → String
  | string => "Sequelize.STRING"
  | integer => "Sequelize.INTEGER"
  | float => "Sequelize.FLOAT"
  | boolean => "Sequelize.BOOLEAN"
  | dateOnly => "Sequelize.DATEONLY"
  | date => "Sequelize.DATE"
  | time => "Sequelize.TIME"
  | json => "Sequelize.JSON"

/-- The primitive types of attributes and the columns that hold them. -/
def ofPrimitives : List (String × ColumnType) :=
  [("String", string), ("Int", integer), ("Float", float), ("Boolean", boolean),
    ("Date", dateOnly), ("DateTime", date), ("Time", time), ("Json", json)]

/-- The column type of a primitive type. -/
def ofPrimitive? (primitive : String) : Option ColumnType := ofPrimitives.lookup primitive

end ColumnType

end Scaffold
