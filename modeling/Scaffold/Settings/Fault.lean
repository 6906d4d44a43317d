/-!
# What can be wrong with settings

  The causes for which settings cannot be loaded, and those for which loaded
  settings cannot be used.
-/

namespace Scaffold.Settings

/-- A cause for which settings cannot be loaded. -/
inductive Fault where
  /-- The file is no TOML, or a value in it cannot become what its field needs. -/
  | unusable (source : String)
  /-- The file is absent, or its name does not tell its format. -/
  | noSource (source : String)
  /-- An environment variable of the build is not set. -/
  | unset (name : String)
  /-- The manifest has no section for this program. -/
  | noSection
  /-- The section names no models directory. -/
  | noModels
  deriving DecidableEq

/-- The wording of a cause. -/
def Fault.message : Fault → String
  | unusable source => s!"Failed to parse {source}"
  | noSource source => s!"configuration file \"{source}\" not found"
  | unset name => s!"{name} not set - are you running from build.rs?"
  | noSection => "Missing [package.metadata.crudgen-codegen] section in Cargo.toml"
  | noModels => "models_dir is required in [package.metadata.crudgen-codegen]"

/-- A cause for which settings cannot be used. -/
inductive Invalid where
  | noModelsDir
  | modelsDirMissing (path : String)
  | noOutputDir
  deriving DecidableEq

/-- The wording of a cause. -/
def Invalid.message : Invalid → String
  | noModelsDir => "models_dir is required"
  | modelsDirMissing path => s!"Models directory not found: {path}"
  | noOutputDir => "output_dir must not be empty"

end Scaffold.Settings
