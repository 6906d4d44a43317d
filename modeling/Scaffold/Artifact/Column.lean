import Scaffold.ColumnType
import Scaffold.Failure
import Scaffold.Source

/-!
# Columns

  The columns that models and migrations declare, and how an attribute becomes
  one: its primitive type must have a column type.
-/

namespace Scaffold

/-- A column that holds an attribute. -/
structure Column where
  name : String
  type : ColumnType
  deriving DecidableEq

namespace Column

/-- The column of an attribute. -/
def ofAttribute : String × String → Except Failure Column
  | (name, primitive) => match ColumnType.ofPrimitive? primitive with
    | some type => .ok ⟨name, type⟩
    | none => .error (.unsupportedType primitive)

/-- The columns of attributes; the first one without a column type decides. -/
def ofAttributes (attributes : List (String × String)) : Except Failure (List Column) :=
  attributes.mapM ofAttribute

/-- A column as source text. -/
def source (c : Column) : Source :=
  Source.block s!"{c.name}: " (Source.lines [s!"type: {c.type.expression}"]) ","

end Column

end Scaffold
