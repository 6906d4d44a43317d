import Scaffold.Entity
import Scaffold.Source

/-!
# Schemas

  The schema of an entity: the type of its records, a page of them, the names
  of its fields, the inputs for searching and ordering, and the queries and
  mutations. Every type is a list of fields, so what a schema declares can be
  read without its text.
-/

namespace Scaffold.Schema

open Naming

/-! ## Fields -/

/-- A field of a type. -/
structure Field where
  name : String
  /-- Names and types of the arguments, where the field takes any. -/
  arguments : Option (List (String × String)) := none
  type : String
  deriving DecidableEq

/-- A field as it is declared. -/
def Field.text (f : Field) : String :=
  let arguments := match f.arguments with
    | none => ""
    | some as => "(" ++ Attributes.parameters as ++ ")"
  s!"{f.name}{arguments}: {f.type}"

/-- The arguments that select, order and cut out records of a type. -/
def listArguments (typeCp : String) : List (String × String) :=
  [("search", s!"search{typeCp}Input"), ("order", s!"[ order{typeCp}Input ]"),
    ("pagination", "paginationInput")]

/-- The argument that selects records of a type. -/
def searchArgument (typeCp : String) : List (String × String) :=
  [("search", s!"search{typeCp}Input")]

/-- The argument that names a record. -/
def idArgument : String × String := ("id", "ID!")

/-! ## The record type -/

/-- The fields of an association with one record on the other side. -/
def oneField (name target : String) : Field :=
  ⟨name, some (searchArgument (capitalize target)), target⟩

/-- The fields of an association with many records on the other side. -/
def manyFields (name target : String) : List Field :=
  [⟨s!"{name}Filter", some (listArguments (capitalize target)), s!"[{target}]"⟩,
    ⟨s!"countFiltered{capitalize name}", some (searchArgument (capitalize target)), "Int"⟩]

variable (e : Entity)

/-- The fields that hold attributes. -/
def attributeFields : List Field :=
  e.attributes.entries.map fun (name, type) => ⟨name, none, type⟩

/-- The fields that lead to associated records. -/
def associationFields : List Field :=
  (e.associations.one.entries.map fun (name, target) => oneField name target) ++
    e.associations.many.entries.flatMap fun (name, target) => manyFields name target

/-- The fields of the record type. -/
def recordFields : List Field :=
  ⟨Attributes.identifier, none, "ID"⟩ :: attributeFields e ++ associationFields e

/-- The fields of a page of records. -/
def pageFields : List Field :=
  ⟨"data", none, s!"[{e.name}]"⟩ ::
    ([("total", "Int"), ("per_page", "Int"), ("current_page", "Int"), ("last_page", "Int"),
      ("prev_page_url", "String"), ("next_page_url", "String"), ("from", "Int"),
      ("to", "Int")].map fun (name, type) => ⟨name, none, type⟩)

/-- The names by which records are searched and ordered. -/
def fieldNames : List String := Attributes.identifier :: e.attributes.others.map Prod.fst

/-- The fields of the input for searching. -/
def searchFields : List Field :=
  [⟨"field", none, s!"{e.nameCp}Field"⟩, ⟨"value", none, "typeValue"⟩,
    ⟨"operator", none, "Operator"⟩, ⟨"search", none, s!"[search{e.nameCp}Input]"⟩]

/-- The fields of the input for ordering. -/
def orderFields : List Field :=
  [⟨"field", none, s!"{e.nameCp}Field"⟩, ⟨"order", none, "Order"⟩]

/-! ## Operations -/

/-- The queries. -/
def queries : List Field :=
  [⟨e.namePl, some (listArguments e.nameCp), s!"[{e.name}]"⟩,
    ⟨s!"readOne{e.nameCp}", some [idArgument], e.name⟩,
    ⟨s!"count{e.namePlCp}", some (searchArgument e.nameCp), "Int"⟩,
    ⟨s!"vueTable{e.nameCp}", none, s!"VueTable{e.nameCp}"⟩,
    ⟨s!"csvTableTemplate{e.nameCp}", none, "[String]"⟩]

/-- The mutations. -/
def mutations : List Field :=
  [⟨s!"add{e.nameCp}", some e.arguments, s!"{e.name}!"⟩,
    ⟨s!"delete{e.nameCp}", some [idArgument], "String!"⟩,
    ⟨s!"update{e.nameCp}", some (idArgument :: e.arguments), s!"{e.name}!"⟩,
    ⟨s!"bulkAdd{e.nameCp}Csv", none, s!"[{e.name}]"⟩]

/-! ## Text -/

/-- Fields between the braces of a type. -/
def fieldBlock (head : String) (fields : List Field) : Source :=
  Source.block s!"{head} " (Source.lines (fields.map Field.text))

/-- Names between the braces of an enumeration. -/
def nameBlock (head : String) (names : List String) : Source :=
  Source.block s!"{head} " (Source.lines names)

/-- The schema as source text. -/
def source : Source :=
  Source.lines ["module.exports = `"] ++
  (Source.spaced [
    fieldBlock s!"type {e.name}" (recordFields e),
    fieldBlock s!"type VueTable{e.nameCp}" (pageFields e),
    nameBlock s!"enum {e.nameCp}Field" (fieldNames e),
    fieldBlock s!"input search{e.nameCp}Input" (searchFields e),
    fieldBlock s!"input order{e.nameCp}Input" (orderFields e),
    fieldBlock "type Query" (queries e),
    fieldBlock "type Mutation" (mutations e)]).indent ++
  Source.lines ["`;"]

/-- The text of the schema. -/
def text : String := (source e).text 2

end Scaffold.Schema
