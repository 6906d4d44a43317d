import Scaffold.Association.Classification
import Scaffold.Path

/-!
# Settings

  What a run is told: where definitions are read and sources written, which
  entities take part, and how strict and how visible the run is.
-/

namespace Scaffold

/-- The settings of a run. -/
structure Settings where
  modelsDir : Path := ⟨""⟩
  outputDir : Path := ⟨"./generated"⟩
  /-- Names of the entities that take part, between commas; a star for all. -/
  includeModels : String := "*"
  /-- Names of the entities that are left out, between commas. -/
  excludeModels : String := ""
  generateMigrations : Bool := true
  /-- An association of an unknown kind fails its entity. -/
  strictAssociations : Bool := true
  /-- A command that is run on every written file. -/
  formatCommand : Option String := none
  /-- Nothing is written. -/
  dryRun : Bool := false
  logLevel : Option String := none
  deriving DecidableEq

namespace Settings

/-- What happens to an association of an unknown kind. -/
def policy (s : Settings) : Policy := if s.strictAssociations then .reject else .skip

/-- The settings with these models only. -/
def including (s : Settings) (models : List String) : Settings :=
  { s with includeModels := ",".intercalate models }

/-- The settings without these models. -/
def excluding (s : Settings) (models : List String) : Settings :=
  { s with excludeModels := ",".intercalate models }

end Settings

end Scaffold
