/-!
# Templates

  The kinds of source text that are generated from data; the two files that
  hold no data have no template.
-/

namespace Scaffold

/-- A template. -/
inductive Template where
  | schema
  | resolvers
  | model
  | migration
  | webserviceModel
  | webserviceResolvers
  | associationMigration
  | throughMigration
  | resolversIndex
  deriving DecidableEq

namespace Template

/-- Every template. -/
def all : List Template :=
  [schema, resolvers, model, migration, webserviceModel, webserviceResolvers,
    associationMigration, throughMigration, resolversIndex]

/-- The name of a template. -/
def name : Template → String
  | schema => "create-schemas"
  | resolvers => "create-resolvers"
  | model => "create-models"
  | migration => "create-migrations"
  | webserviceModel => "create-models-webservice"
  | webserviceResolvers => "create-resolvers-webservice"
  | associationMigration => "create-association-migration"
  | throughMigration => "create-through-migration"
  | resolversIndex => "create-resolvers-index"

/-- The template of a name. -/
def ofName? (text : String) : Option Template := all.find? (·.name == text)

end Template

end Scaffold
