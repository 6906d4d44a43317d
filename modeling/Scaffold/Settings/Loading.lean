import Scaffold.Files.Tree
import Scaffold.Settings.Basic
import Scaffold.Settings.Layer
import Scaffold.Text.Utf8

/-!
# Loading settings

  Settings are read from one TOML file, where every value must have the type
  of its setting, or from two layers, a file and above it the environment,
  where values are converted. A setting for which nothing is given has its
  default. The file of the lower layer is looked for by its name, and by its
  name with the extension of a format behind it.
-/

namespace Scaffold

open Files (Tree)

namespace Settings

/-! ## From values to settings -/

/-- How the values of a source become what settings hold. -/
structure Conversion (α : Type) where
  isNull : α → Bool
  text? : α → Option String
  flag? : α → Option Bool

namespace Conversion

/-- Every value must have the type of its setting. -/
def strict : Conversion Toml.Value where
  isNull _ := false
  text?
    | .text s => some s
    | _ => none
  flag?
    | .bool b => some b
    | _ => none

/-- Values are converted. -/
def lenient : Conversion Given where
  isNull v := v == .null
  text? := Given.text?
  flag? := Given.flag?

variable {α : Type} (c : Conversion α)

/-- A setting with a default. -/
def field {β : Type} (read : α → Option β) (fallback : β) : Option α → Option β
  | none => some fallback
  | some v => read v

/-- A text that may be absent. -/
def optional : Option α → Option (Option String)
  | none => some none
  | some v => if c.isNull v then some none else (c.text? v).map some

/-- A path. -/
def path? (v : α) : Option Path := (c.text? v).map Path.mk

/-- The settings for which values are given under their names. -/
def settings (get? : String → Option α) : Option Settings := do
  let default : Settings := {}
  let modelsDir ← field c.path? default.modelsDir (get? "models_dir")
  let outputDir ← field c.path? default.outputDir (get? "output_dir")
  let includeModels ← field c.text? default.includeModels (get? "include_models")
  let excludeModels ← field c.text? default.excludeModels (get? "exclude_models")
  let generateMigrations ← field c.flag? default.generateMigrations (get? "generate_migrations")
  let strictAssociations ← field c.flag? default.strictAssociations (get? "strict_associations")
  let formatCommand ← c.optional (get? "format_command")
  let dryRun ← field c.flag? default.dryRun (get? "dry_run")
  let logLevel ← c.optional (get? "log_level")
  return { modelsDir, outputDir, includeModels, excludeModels, generateMigrations,
           strictAssociations, formatCommand, dryRun, logLevel }

end Conversion

/-- A value, or the failure for a source that is not usable. -/
def usable {α : Type} (source : Path) : Option α → Except Failure α
  | some a => .ok a
  | none => .error (.settings (.unusable source.text))

/-! ## One file -/

/-- The whole numbers that 128 bits hold, with a sign or without. -/
def fitsWide (i : Int) : Bool := -(Decimal.twoTo 127 : Int) ≤ i && i < Decimal.twoTo 128

/-- A document of TOML whose numbers are not too large. -/
def document? (text : String) : Option Toml.Entries :=
  (Toml.read text).filter (Toml.entriesPass fitsWide)

/-- The settings in a TOML file. -/
def ofFile (t : Tree) (p : Path) : Except Failure Settings := do
  let text ← (t.readText p).mapError .files
  usable p ((document? text).bind fun es => Conversion.strict.settings es.get?)

/-! ## Two layers -/

/-- A format of files. -/
inductive Format where
  | toml
  | json
  deriving DecidableEq

namespace Format

/-- The formats, in the order in which they are tried. -/
def all : List Format := [toml, json]

/-- The extension of files in a format. -/
def extension : Format → String
  | toml => "toml"
  | json => "json"

/-- The format of a file. -/
def ofPath? (p : Path) : Option Format := all.find? fun f => p.extension? == some f.extension

/-- The layer of a text in a format. -/
def layer? : Format → String → Option Layer
  | toml => Layer.ofToml?
  | json => Layer.ofJson?

end Format

/-- The file for a name, and its format: the file of that very name if it is there, else one
    with the extension of a format behind the name. -/
def fileFor? (t : Tree) (p : Path) : Option (Path × Format) :=
  if t.isFile p then (Format.ofPath? p).map (p, ·)
  else Format.all.findSome? fun f =>
    let q := p.withSuffix s!".{f.extension}"
    if t.isFile q then some (q, f) else none

/-- The text of a file whose bytes need not be text; a byte order mark in front is left out. -/
def looseText (bytes : ByteArray) : String :=
  match (Text.Utf8.decode bytes).toList with
  | c :: cs => String.ofList (if c = Toml.mark then cs else c :: cs)
  | [] => ""

/-- The layer of a file. -/
def fileLayer (t : Tree) (p : Path) (f : Format) : Except Failure Layer := do
  let bytes ← (t.read p).mapError fun _ => .settings (.noSource p.text)
  usable p (f.layer? (looseText bytes))

/-- The name of the file when no other is given. -/
def defaultName : Path := ⟨"crudgen-codegen"⟩

/-- The lower layer. A file that has been asked for must be there. -/
def lowerLayer (t : Tree) (name : Option Path) : Except Failure Layer :=
  match fileFor? t (name.getD defaultName), name with
  | some (p, f), _ => fileLayer t p f
  | none, some p => .error (.settings (.noSource p.text))
  | none, none => .ok ∅

/-- The settings of a file and an environment. -/
def load (t : Tree) (env : Environment) (name : Option Path) : Except Failure Settings := do
  let lower ← lowerLayer t name
  let layer := lower.below (Layer.ofEnvironment env)
  usable (name.getD defaultName) (Conversion.lenient.settings layer.get?)

/-! ## Checking -/

/-- The settings can be used. -/
def check (isDirectory : Path → Bool) (s : Settings) : Except Failure Unit :=
  if s.modelsDir.text.isEmpty then .error (.invalidSettings .noModelsDir)
  else if !isDirectory s.modelsDir then
    .error (.invalidSettings (.modelsDirMissing s.modelsDir.text))
  else if s.outputDir.text.isEmpty then .error (.invalidSettings .noOutputDir)
  else .ok ()

end Settings

end Scaffold
