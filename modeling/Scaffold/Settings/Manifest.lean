import Scaffold.Settings.Loading

/-!
# Settings in a package manifest

  A package can keep its settings in a section of its manifest. Paths in the
  section start from the directory of the manifest. The build system names
  that directory, and another one for generated files, by environment
  variables.
-/

namespace Scaffold.Settings

open Files (Tree)

/-- The settings in a manifest. -/
structure Section where
  modelsDir : Option String
  outputDir : Option String
  includeModels : List String
  excludeModels : List String
  generateMigrations : Option Bool
  strictAssociations : Option Bool
  formatCommand : Option String
  deriving DecidableEq

namespace Section

/-! ## Reading -/

/-- The fields of a record in the order of their names; all of them must be there. -/
def inOrder (names : List String) (items : List Toml.Value) : Option Toml.Entries :=
  if names.length ≤ items.length then some (names.zip items) else none

/-- The fields of a record with their names. An array holds them in order, and a date or time is
    taken for a record without fields. -/
def fields? (names : List String) : Toml.Value → Option Toml.Entries
  | .table _ es => some es
  | .array items => inOrder names items
  | .tables before last => inOrder names ((before ++ [last]).map (.table .header))
  | .moment _ => some []
  | _ => none

/-- The value at the end of a path of names, if it is there. -/
def find? : List String → Toml.Value → Option (Option Toml.Value)
  | [], v => some (some v)
  | name :: path, v => do
    match (← fields? [name] v).get? name with
    | some inner => find? path inner
    | none => return none

/-- A list of texts. -/
def texts? : Toml.Value → Option (List String)
  | .array items => items.mapM Conversion.strict.text?
  | _ => none

/-- A field that may be absent. -/
def optional {α : Type} (read : Toml.Value → Option α) : Option Toml.Value → Option (Option α)
  | none => some none
  | some v => (read v).map some

/-- The names of the fields. -/
def names : List String :=
  ["models_dir", "output_dir", "include_models", "exclude_models", "generate_migrations",
    "strict_associations", "format_command"]

/-- The section that a value holds. -/
def ofValue? (v : Toml.Value) : Option Section := do
  let es ← fields? names v
  let c := Conversion.strict
  let modelsDir ← optional c.text? (es.get? "models_dir")
  let outputDir ← optional c.text? (es.get? "output_dir")
  let includeModels ← optional texts? (es.get? "include_models")
  let excludeModels ← optional texts? (es.get? "exclude_models")
  let generateMigrations ← optional c.flag? (es.get? "generate_migrations")
  let strictAssociations ← optional c.flag? (es.get? "strict_associations")
  let formatCommand ← optional c.text? (es.get? "format_command")
  return { modelsDir, outputDir, includeModels := includeModels.getD [],
           excludeModels := excludeModels.getD [], generateMigrations, strictAssociations,
           formatCommand }

/-- Where the section stands in a manifest. -/
def place : List String := ["package", "metadata", "crudgen-codegen"]

/-- The section of a manifest, if there is one. -/
def ofText? (text : String) : Option (Option Section) := do
  match ← find? place (.table .header (← document? text)) with
  | some v => (ofValue? v).map some
  | none => return none

/-! ## Settings -/

/-- The variable that names the directory of the manifest. -/
def directoryVariable : String := "CARGO_MANIFEST_DIR"

/-- The variable that names the directory for generated files. -/
def outputVariable : String := "OUT_DIR"

/-- The value of a variable that must be set. -/
def variableOf (env : Environment) (name : String) : Except Failure String :=
  match env.get? name with
  | some value => .ok value
  | none => .error (.settings (.unset name))

/-- The settings of a section. An empty list of models is no list. -/
def settings (env : Environment) (dir : Path) (s : Section) : Except Failure Settings := do
  let modelsDir ← match s.modelsDir with
    | some models => pure (dir.join models)
    | none => throw (.settings .noModels)
  let outputDir ← match s.outputDir with
    | some output => pure (dir.join output)
    | none => Path.mk <$> variableOf env outputVariable
  let all : Settings :=
    { modelsDir, outputDir, formatCommand := s.formatCommand
      generateMigrations := s.generateMigrations.getD true
      strictAssociations := s.strictAssociations.getD true }
  let chosen := if s.includeModels.isEmpty then all else all.including s.includeModels
  return if s.excludeModels.isEmpty then chosen else chosen.excluding s.excludeModels

end Section

/-- The manifest that the environment names. -/
def manifestPath (env : Environment) : Except Failure Path :=
  (Section.variableOf env Section.directoryVariable).map fun dir => (Path.mk dir).join "Cargo.toml"

/-- The settings in the manifest that the environment names. -/
def ofManifest (t : Tree) (env : Environment) : Except Failure Settings := do
  let dir ← Section.variableOf env Section.directoryVariable
  let path ← manifestPath env
  let text ← (t.readText path).mapError .files
  match ← usable path (Section.ofText? text) with
  | some s => s.settings env ⟨dir⟩
  | none => throw (.settings .noSection)

end Scaffold.Settings
