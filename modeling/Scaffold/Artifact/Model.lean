import Scaffold.Artifact.Column
import Scaffold.Entity

/-!
# Models

  The model class of an entity with a table: its columns, the associations
  that the database resolves by itself, and the access to its records.
-/

namespace Scaffold

open Source

/-- The declaration of an association in a model class. -/
structure Model.Call where
  shape : Shape
  /-- The model on the other side, by the name of its file. -/
  target : String
  /-- The name under which records lead to the other side. -/
  role : String
  foreignKey : String
  /-- The join table, for many-to-many associations. -/
  through : Option String
  deriving DecidableEq

/-- A model class. -/
structure Model where
  name : String
  nameLc : String
  table : String
  columns : List Column
  calls : List Model.Call
  /-- The attributes as declared, for the template of imports. -/
  attributes : List (String × String)
  deriving DecidableEq

namespace Model

/-- The declaration of an implicit association. Without a key of its own it uses the owner's. -/
def Call.of (owner : Entity) (a : Association) : Call :=
  let ownerKey := s!"{owner.nameLc}Id"
  { shape := a.shape
    target := a.targetLc
    role := a.nameLc
    foreignKey := match a.shape with
      | .belongsTo => a.targetKey
      | .hasOne | .hasMany => a.spec.targetKey.getD ownerKey
      | .belongsToMany => a.spec.sourceKey.getD ownerKey
    through := match a.shape with
      | .belongsToMany => some a.keysIn
      | _ => none }

/-- The model of an entity. -/
def of (e : Entity) : Except Failure Model := do
  let columns ← Column.ofAttributes e.attributes.entries
  return { name := e.name, nameLc := e.nameLc, table := e.table, columns,
           calls := e.associations.implicit.listed.map (Call.of e),
           attributes := e.attributes.entries }

/-! ## Text -/

/-- The declaration of an association as source text. -/
def Call.text (owner : String) (c : Call) : String :=
  let through := match c.through with
    | some table => s!", through: '{table}', onDelete: 'CASCADE'"
    | none => ""
  s!"{owner}.{c.shape.name}(models.{c.target}, \x7b as: '{c.role}', foreignKey: '{c.foreignKey}'{through} \x7d);"

variable (m : Model)

/-- The registration of the columns. -/
def initSource : Source :=
  block "static init(sequelize, DataTypes) "
    (lines ["return super.init(\x7b"] ++ indent (m.columns.flatMap Column.source) ++
      block "\x7d, "
        (lines [s!"modelName: '{m.nameLc}',", s!"tableName: '{m.table}',", "sequelize"]) ");")

/-- The declarations of the associations. -/
def associateSource : Source :=
  block "static associate(models) " (lines (m.calls.map (Call.text m.name)))

/-- Refuse an identifier that no record has. -/
def missingRecord (condition : String) : Source :=
  block s!"if ({condition}) "
    (lines ["throw new Error(`Record with ID = \"$\x7bid\x7d\" does not exist`);"])

/-- The access to the records. -/
def accessSource : List Source :=
  [block "static async readById(id) "
      (lines [s!"let item = await {m.name}.findByPk(id);"] ++ missingRecord "item === null" ++
        lines ["return item;"]),
    block "static readAll(search, order, pagination) "
      (lines [s!"return {m.name}.findAll(helper.buildQueryOptions(search, order, pagination));"]),
    block "static countRecords(search) "
      (lines [s!"return {m.name}.count(helper.buildQueryOptions(search));"]),
    block "static addOne(input) " (lines [s!"return {m.name}.create(input);"]),
    block "static async deleteOne(id) "
      (lines [s!"let deleted = await {m.name}.destroy(\x7b where: \x7b id: id \x7d \x7d);"] ++
        missingRecord "deleted === 0" ++ lines ["return id;"]),
    block "static async updateOne(input) "
      (lines [s!"let item = await {m.name}.readById(input.id);", "return item.update(input);"]),
    block "static async bulkAddCsv(context) "
      (lines ["let delim = context.request.body.delim || ',';",
        "let records = await helper.parseCsv(context.request.files.csv_file, delim);",
        s!"await {m.name}.bulkCreate(records, \x7b validate: true \x7d);",
        "return `Successfully added $\x7brecords.length\x7d records`;"])]

/-- The names and types that an import has in its first lines. -/
def templateSource : Source :=
  let names := ",".intercalate (m.attributes.map Prod.fst)
  let types := ",".intercalate (m.attributes.map Prod.snd)
  block "static csvTableTemplate() " (lines [s!"return ['{names}', '{types}'];"])

/-- The identifier of a record. -/
def idSource : Source := block "getIdValue() " (lines ["return this.id;"])

/-- The model as source text. -/
def source : Source :=
  lines ["'use strict';"] ++ gap ++
  lines ["const Sequelize = require('sequelize');",
    "const helper = require('../utils/helper');"] ++ gap ++
  block s!"module.exports = class {m.name} extends Sequelize.Model "
    (gap ++ spaced ([initSource m, associateSource m] ++ accessSource m ++
      [templateSource m, idSource])) ";"

/-- The text of the model. -/
def text : String := m.source.text 4

end Model

end Scaffold
