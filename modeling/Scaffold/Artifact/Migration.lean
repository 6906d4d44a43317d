import Scaffold.Artifact.Column
import Scaffold.Entity

/-!
# Migrations

  A migration creates a table or adds a column, and takes that back again.
  There are three: the table of an entity, the column that a belongs-to
  association adds to its owner's table, and the table that joins the two
  sides of a many-to-many association.
-/

namespace Scaffold

open Source

/-- What a column of a new table holds. -/
inductive Migration.Content where
  /-- The identifier that the database counts up. -/
  | key
  /-- A value. -/
  | plain (type : ColumnType)
  /-- The identifier of a record in a table. -/
  | reference (table : String)
  deriving DecidableEq

/-- A column of a new table. -/
structure Migration.TableColumn where
  name : String
  content : Migration.Content
  deriving DecidableEq

/-- A migration. -/
inductive Migration where
  /-- Create a table, and an index for each of the listed columns. -/
  | createTable (table : String) (columns : List Migration.TableColumn) (indices : List String)
  /-- Add a column that refers to the records of `target`. -/
  | addColumn (table column target : String)
  deriving DecidableEq

namespace Migration

/-- The columns that every table has. -/
def commonColumns : List TableColumn :=
  [⟨"id", .key⟩, ⟨"createdAt", .plain .date⟩, ⟨"updatedAt", .plain .date⟩]

/-- The column of an attribute in a new table. -/
def attributeColumn (c : Column) : TableColumn := ⟨c.name, .plain c.type⟩

/-- The table of an entity. -/
def table (e : Entity) : Except Failure Migration := do
  let columns ← Column.ofAttributes e.attributes.others
  return .createTable e.table (commonColumns ++ columns.map attributeColumn) e.indices

/-- The column of a belongs-to association. -/
def column (owner : Entity) (a : Association) : Migration :=
  .addColumn owner.table a.targetKey a.targetLcPl

/-- The column of a join table that refers to the owner's records. -/
def sourceColumn (owner : Entity) (a : Association) : TableColumn :=
  ⟨a.spec.sourceKey.getD s!"{owner.nameLc}Id", .reference owner.table⟩

/-- The column of a join table that refers to the other side. -/
def targetColumn (a : Association) : TableColumn :=
  ⟨a.spec.targetKey.getD s!"{a.targetLc}Id", .reference a.targetLcPl⟩

/-- The join table of a many-to-many association. -/
def joinTable (owner : Entity) (a : Association) : Migration :=
  .createTable a.keysIn (commonColumns ++ [sourceColumn owner a, targetColumn a]) []

/-! ## Text -/

/-- The properties of a column. -/
def Content.source : Content → Source
  | key =>
    lines [s!"type: {ColumnType.integer.expression},", "primaryKey: true,", "autoIncrement: true"]
  | plain type => lines [s!"type: {type.expression}"]
  | reference table =>
    lines [s!"type: {ColumnType.integer.expression},", "onDelete: 'CASCADE',"] ++
      block "references: " (lines [s!"model: '{table}',", "key: 'id'"])

/-- A column of a new table. -/
def TableColumn.source (c : TableColumn) : Source := block s!"{c.name}: " c.content.source ","

/-- Items behind one another, with a comma behind each but the last. -/
def commaSeparated : List String → List String
  | [] => []
  | [s] => [s]
  | s :: ss => s!"{s}," :: commaSeparated ss

/-- The creation of the indices, once the table is there. -/
def indexSource (table : String) (indices : List String) : Source :=
  lines ["return Promise.all(["] ++
  indent (lines (commaSeparated
    (indices.map fun i => s!"queryInterface.addIndex('{table}', ['{i}'])"))) ++
  lines ["]);"]

/-- What the migration does. -/
def upSource : Migration → Source
  | createTable table columns indices =>
    block s!"return queryInterface.createTable('{table}', " (columns.flatMap TableColumn.source)
      (if indices.isEmpty then ");" else ").then(() => \x7b") ++
    (if indices.isEmpty then []
      else indent (indexSource table indices) ++ lines ["\x7d);"])
  | addColumn table column target =>
    block s!"return queryInterface.addColumn('{table}', '{column}', "
      (lines [s!"type: {ColumnType.integer.expression},"] ++
        block "references: " (lines [s!"model: '{target}',", "key: 'id'"]) "," ++
        lines ["onUpdate: 'CASCADE',", "onDelete: 'SET NULL'"]) ");"

/-- How it is taken back. -/
def downSource : Migration → Source
  | createTable table _ _ => lines [s!"return queryInterface.dropTable('{table}');"]
  | addColumn table column _ =>
    lines [s!"return queryInterface.removeColumn('{table}', '{column}');"]

/-- The migration as source text. -/
def source (m : Migration) : Source :=
  lines ["'use strict';"] ++ gap ++
  block "module.exports = "
    (gap ++ block "up: function(queryInterface, Sequelize) " (upSource m) "," ++ gap ++
      block "down: function(queryInterface, Sequelize) " (downSource m) ++ gap) ";"

/-- The text of the migration. -/
def text (m : Migration) : String := m.source.text 4

end Migration

end Scaffold
