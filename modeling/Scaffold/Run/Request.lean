import Scaffold.Artifact.Rendering
import Scaffold.Artifact.Shared
import Scaffold.Migration.Stamper
import Scaffold.Settings.Basic

/-!
# Requests

  What a run intends to write, as a list: the artifacts of each entity in
  turn, then the migrations of associations, which must come behind all tables,
  and at last the files of the whole batch. A request says where its file goes,
  which for a migration is settled only when its stamp is drawn, and what the
  file holds. The list does not depend on the clock or on what happens to
  other files.
-/

namespace Scaffold

/-- Where a file goes. -/
inductive Place where
  | fixed (path : Path)
  /-- Among the migrations, under a name that a stamp precedes. -/
  | stamped (discriminator : String)
  deriving DecidableEq

/-- A file that a run intends to write. -/
structure Request where
  /-- The template of its text; shared files have none. -/
  template : Option Template
  place : Place
  /-- Its text, unless it cannot be rendered. -/
  content : Except Failure String

namespace Request

/-- The directory of schemas. -/
def schemasDir : String := "schemas"

/-- The directory of resolvers. -/
def resolversDir : String := "resolvers"

/-- A file in a directory below the output directory. -/
def fileIn (settings : Settings) (dir file : String) : Place :=
  .fixed ((settings.outputDir.join dir).join file)

/-- The request for a template. -/
def rendered (template : Template) (context : Context) (place : Place) : Request :=
  ⟨some template, place, template.render context⟩

/-! ## Entities -/

/-- Template and place of each artifact of an entity. -/
def plan (settings : Settings) (e : Entity) : List (Template × Place) :=
  let file := s!"{e.nameLc}.js"
  match e.storage with
  | .sql =>
    [(.schema, fileIn settings schemasDir file), (.resolvers, fileIn settings resolversDir file),
      (.model, fileIn settings modelsDir file)] ++
    (if settings.generateMigrations then [(.migration, .stamped e.nameLc)] else [])
  | .webservice =>
    [(.schema, fileIn settings schemasDir file),
      (.webserviceModel, fileIn settings remoteModelsDir file),
      (.webserviceResolvers, fileIn settings resolversDir file)]

/-- The artifacts of an entity. -/
def ofEntity (settings : Settings) (e : Entity) : List Request :=
  (plan settings e).map fun (template, place) => rendered template (.entity e) place

/-! ## Migrations of associations -/

/-- The column of a belongs-to association. -/
def ofColumn (owner : Entity) (a : Association) : Request :=
  rendered .associationMigration (.association owner a)
    (.stamped s!"z-column-{a.targetKey}-to-{owner.table}")

/-- The join table of a many-to-many association. -/
def ofJoinTable (owner : Entity) (a : Association) : Request :=
  rendered .throughMigration (.association owner a) (.stamped s!"z-through-{a.keysIn}")

/-- The associations whose join table is not among `known`, one for each join table. -/
def newJoins (known : List String) : List Association → List Association
  | [] => []
  | a :: as =>
    if a.keysIn ∈ known then newJoins known as else a :: newJoins (a.keysIn :: known) as

/-- The migrations of the associations of relational entities: for each entity its columns, then
    the join tables that are not among `known` and that no earlier association has declared. -/
def ofAssociations (known : List String) : List Entity → List Request
  | [] => []
  | e :: es =>
    let joins := newJoins known (e.associations.implicit.ofShape .belongsToMany)
    (e.associations.implicit.ofShape .belongsTo).map (ofColumn e) ++
      joins.map (ofJoinTable e) ++
      ofAssociations (joins.map Association.keysIn ++ known) es

/-! ## The batch -/

/-- The files of the whole batch. -/
def ofBatch (settings : Settings) (entities : List Entity) : List Request :=
  [rendered .resolversIndex (.index (entities.map Resolvers.Indexed.of))
      (fileIn settings resolversDir "index.js"),
    ⟨none, fileIn settings schemasDir "commons.js", .ok Shared.schemaCommons⟩,
    ⟨none, fileIn settings modelsDir "index.js", .ok Shared.modelsIndex⟩]

/-- All that a run intends to write. -/
def all (settings : Settings) (entities : List Entity) : List Request :=
  entities.flatMap (ofEntity settings) ++
    (if settings.generateMigrations then ofAssociations [] (entities.filter (·.isRelational))
      else []) ++
    ofBatch settings entities

end Request

/-! ## Attempts -/

/-- A request whose path is settled. -/
structure Attempt where
  template : Option Template
  path : Path
  content : Except Failure String

namespace Stamper

/-- The path of a place; places among the migrations draw a stamp. -/
def settle (clock : Clock) (outputDir : Path) (s : Stamper) : Place → Option Path × Stamper
  | .fixed path => (some path, s)
  | .stamped discriminator =>
    let (time, s') := s.next clock
    (time.map (pathFor outputDir · discriminator), s')

/-- The paths of places in turn, as long as there are stamps. -/
def settleAll (clock : Clock) (outputDir : Path) :
    Stamper → List Place → Option (List Path) × Stamper
  | s, [] => (some [], s)
  | s, place :: places =>
    match s.settle clock outputDir place with
    | (none, s') => (none, s')
    | (some path, s') =>
      let (paths, s'') := settleAll clock outputDir s' places
      (paths.map (path :: ·), s'')

end Stamper

/-- The attempt of a request at a path. -/
def Request.at (r : Request) (path : Path) : Attempt := ⟨r.template, path, r.content⟩

end Scaffold
