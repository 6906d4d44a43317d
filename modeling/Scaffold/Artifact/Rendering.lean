import Scaffold.Artifact.Migration
import Scaffold.Artifact.Model
import Scaffold.Artifact.RemoteModel
import Scaffold.Artifact.Resolvers
import Scaffold.Artifact.Schema

/-!
# Rendering

  The text of a template for the data it is given. Each template takes data of
  one kind and refuses the others.
-/

namespace Scaffold

/-- The data that a template is given. -/
inductive Context where
  | entity (e : Entity)
  | association (owner : Entity) (a : Association)
  | index (models : List Resolvers.Indexed)

/-- The directory of the models of entities with a table. -/
def modelsDir : String := "models"

/-- The directory of the models of remote entities. -/
def remoteModelsDir : String := "models-webservice"

/-- The text of a template. -/
def Template.render : Template → Context → Except Failure String
  | schema, .entity e => .ok (Schema.text e)
  | resolvers, .entity e => .ok (Resolvers.text modelsDir e)
  | webserviceResolvers, .entity e => .ok (Resolvers.text remoteModelsDir e)
  | model, .entity e => (Model.of e).map Model.text
  | webserviceModel, .entity e => .ok (RemoteModel.of e).text
  | migration, .entity e => (Migration.table e).map Migration.text
  | associationMigration, .association owner a => .ok (Migration.column owner a).text
  | throughMigration, .association owner a => .ok (Migration.joinTable owner a).text
  | resolversIndex, .index models => .ok (Resolvers.indexText models)
  | t, _ => .error (.mismatchedContext t)

end Scaffold
