import Scaffold.Entity
import Scaffold.Source

/-!
# Resolvers

  The resolvers of an entity: a method of its records for each field that
  leads to associated records, and a function for each query and mutation.
  Records of implicit associations come from the model itself, those of
  explicit ones from the resolvers of the other entity.
-/

namespace Scaffold.Resolvers

open Source

/-! ## Methods of records -/

/-- A method of the records of an entity. -/
structure Method where
  name : String
  async : Bool := false
  parameters : String
  body : Source
  deriving DecidableEq

/-- The parameters of a method that selects, orders and cuts out records. -/
def listParameters : String := "\x7b search, order, pagination \x7d"

/-- The parameters of a method that selects records. -/
def searchParameters : String := "\x7b search \x7d"

/-- The column on the other side that points back to the owner, or the owner's own key. -/
def keyOf (owner : Entity) (a : Association) : String :=
  a.spec.targetKey.getD s!"{owner.nameLc}Id"

/-- The methods of an implicit association. -/
def implicitMethods (a : Association) : List Method :=
  match a.arity with
  | .one =>
    [{ name := a.nameLc, parameters := searchParameters,
       body := lines [s!"return this.get{a.nameCp}();"] }]
  | .many =>
    [{ name := s!"{a.nameLc}Filter", parameters := listParameters,
       body := lines [s!"return this.get{a.nameCp}(helper.buildQueryOptions(search, order, pagination));"] },
     { name := s!"countFiltered{a.nameCp}", parameters := searchParameters,
       body := lines [s!"return this.count{a.nameCp}(helper.buildQueryOptions(search));"] }]

/-- Restrict the search to the records whose `key` is the identifier of this one. -/
def narrowSearch (key : String) : Source :=
  block "let nsearch = helper.addSearchField("
    (lines ["search: search,", s!"field: '{key}',", "value: \x7b value: this.getIdValue() \x7d,",
      "operator: 'eq'"]) ");"

/-- The methods of an explicit association. -/
def explicitMethods (owner : Entity) (a : Association) : List Method :=
  let key := keyOf owner a
  match a.shape with
  | .belongsTo =>
    [{ name := a.nameLc, parameters := searchParameters,
       body := block s!"if (this.{key} === null || this.{key} === undefined) "
           (lines ["return null;"]) ++
         lines [s!"return resolvers.readOne{a.targetCp}(\x7b id: this.{key} \x7d, context);"] }]
  | .hasOne =>
    [{ name := a.nameLc, async := true, parameters := searchParameters,
       body := narrowSearch key ++
         lines [s!"let found = await resolvers.{a.targetLcPl}(\x7b search: nsearch, pagination: \x7b limit: 1 \x7d \x7d, context);",
          "return found.length > 0 ? found[0] : null;"] }]
  | .hasMany | .belongsToMany =>
    [{ name := s!"{a.nameLc}Filter", parameters := listParameters,
       body := narrowSearch key ++
         lines [s!"return resolvers.{a.targetLcPl}(\x7b search: nsearch, order: order, pagination: pagination \x7d, context);"] },
     { name := s!"countFiltered{a.nameCp}", parameters := searchParameters,
       body := narrowSearch key ++
         lines [s!"return resolvers.count{a.targetCpPl}(\x7b search: nsearch \x7d, context);"] }]

/-- The methods of the records of an entity. -/
def methods (e : Entity) : List Method :=
  e.associations.implicit.listed.flatMap implicitMethods ++
    e.associations.explicit.listed.flatMap (explicitMethods e)

/-! ## Operations -/

/-- The function behind a query or mutation. -/
structure Operation where
  name : String
  parameters : String
  permission : String
  body : String
  deriving DecidableEq

/-- Names as a list of quoted texts. -/
def quotedList (names : List String) : String :=
  "[" ++ ", ".intercalate (names.map fun n => s!"'{n}'") ++ "]"

/-- The functions behind the queries and mutations of an entity. -/
def operations (e : Entity) : List Operation :=
  [⟨e.namePl, listParameters, "read", s!"return {e.name}.readAll(search, order, pagination);"⟩,
    ⟨s!"readOne{e.nameCp}", "\x7b id \x7d", "read", s!"return {e.name}.readById(id);"⟩,
    ⟨s!"count{e.namePlCp}", searchParameters, "read",
      s!"return {e.name}.countRecords(search);"⟩,
    ⟨s!"vueTable{e.nameCp}", "_", "read",
      s!"return helper.vueTable(context.request, {e.name}, {quotedList e.attributes.texts});"⟩,
    ⟨s!"add{e.nameCp}", "input", "create", s!"return {e.name}.addOne(input);"⟩,
    ⟨s!"delete{e.nameCp}", "\x7b id \x7d", "delete",
      s!"return {e.name}.deleteOne(id).then(() => 'Item successfully deleted');"⟩,
    ⟨s!"update{e.nameCp}", "input", "update", s!"return {e.name}.updateOne(input);"⟩,
    ⟨s!"bulkAdd{e.nameCp}Csv", "_", "create", s!"return {e.name}.bulkAddCsv(context);"⟩,
    ⟨s!"csvTableTemplate{e.nameCp}", "_", "read", s!"return {e.name}.csvTableTemplate();"⟩]

/-! ## Text -/

/-- A method as source text, with a blank line behind it. -/
def Method.source (model : String) (m : Method) : Source :=
  let async := if m.async then "async " else ""
  block s!"{model}.prototype.{m.name} = {async}function({m.parameters}, context) "
    m.body ";" ++ gap

/-- An operation as source text: it runs only with the permission it names. -/
def Operation.source (model : String) (o : Operation) : Source :=
  block s!"{o.name}: function({o.parameters}, context) "
    (block
      s!"return checkAuthorization(context, '{model}', '{o.permission}').then(authorization => "
      (lines ["if (authorization === true) \x7b"] ++ indent (lines [o.body]) ++
        block "\x7d else "
          (lines ["throw new Error(\"You don't have authorization to perform this action\");"]))
      ").catch(error => \x7b" ++
    indent (lines ["console.error(error);", "throw error;"]) ++ lines ["\x7d);"])
    ","

/-- The resolvers as source text, for a model in the given directory. -/
def source (modelsDir : String) (e : Entity) : Source :=
  lines ["/*", "    Resolvers for basic CRUD operations", "*/"] ++ gap ++
  lines ["const path = require('path');",
    s!"const {e.name} = require(path.join(__dirname, '..', '{modelsDir}', '{e.nameLc}.js'));",
    "const helper = require('../utils/helper');",
    "const checkAuthorization = require('../utils/check-authorization');",
    "const resolvers = require(path.join(__dirname, 'index.js'));"] ++ gap ++
  (methods e).flatMap (Method.source e.name) ++
  block "module.exports = " ((operations e).flatMap (Operation.source e.name)) ";"

/-- The text of the resolvers. -/
def text (modelsDir : String) (e : Entity) : String := (source modelsDir e).text 4

/-! ## Index -/

/-- A model that the index lists. -/
structure Indexed where
  name : String
  nameLc : String
  deriving DecidableEq

/-- The entity as the index lists it. -/
def Indexed.of (e : Entity) : Indexed := ⟨e.name, e.nameLc⟩

/-- The index, which merges the resolvers of all entities. -/
def indexSource (models : List Indexed) : Source :=
  let names := ", ".intercalate (models.map Indexed.name)
  lines (models.map fun m => s!"const {m.name} = require('./{m.nameLc}');") ++ gap ++
    lines [s!"module.exports = Object.assign(\x7b\x7d, {names});"]

/-- The text of the index. -/
def indexText (models : List Indexed) : String := (indexSource models).text 4

end Scaffold.Resolvers
