import Scaffold.CommandLine.Arguments
import Scaffold.CommandLine.Listing
import Scaffold.Run.Workspace
import Scaffold.Settings.Loading

/-!
# What comes of a command line

  A command line is carried out in a workspace, with an environment and a
  clock. It ends with a code and, if that is not zero, with a message: one for
  a failure, and two for a command line that goes against the rules. Options
  go above all layers of settings.
-/

namespace Scaffold.CommandLine

/-! ## Ends -/

/-- Why a command line does not end well. -/
inductive Stop where
  | failure (f : Failure)
  /-- A run went through with that many failures. -/
  | failures (n : Nat)
  deriving DecidableEq

/-- The message of a stop. A fault of the file system is named as the cause once more. -/
def Stop.message : Stop → String
  | failure f => s!"Error: {f.message}\n" ++ match f with
    | .files fault => s!"\nCaused by:\n    {fault.message}\n"
    | _ => ""
  | failures n => s!"Error: {n} failure(s) during generation\n"

/-- How a command line ends. -/
structure Ending where
  code : Nat
  message : String
  deriving DecidableEq

namespace Ending

/-- A good end. -/
def success : Ending := ⟨0, ""⟩

/-- The end of what may have been stopped. -/
def of : Except Stop Unit → Ending
  | .ok () => success
  | .error stop => ⟨1, stop.message⟩

end Ending

/-- The name and version of the program. -/
def versionLine : String := "crudgen-codegen 0.1.0\n"

/-- How the program is used. -/
def usage : String :=
  String.join ["Usage: crudgen-codegen [OPTIONS] [generate | inspect | options <FILE> | help]\n\n",
    "Options:\n",
    "  -c, --config <CONFIG>  A file with settings\n",
    "  -m, --models <MODELS>  The directory of definitions\n",
    "  -o, --output <OUTPUT>  The directory for generated files\n",
    "      --dry-run          Write nothing\n",
    "  -h, --help             Show this text\n",
    "  -V, --version          Show the version\n"]

/-! ## Settings -/

/-- Settings below the options of a command line. -/
def Options.over (o : Options) (s : Settings) : Settings :=
  { s with
    modelsDir := o.models.getD s.modelsDir
    outputDir := o.output.getD s.outputDir
    dryRun := o.dryRun || s.dryRun }

/-- The settings of a command line. -/
def Options.settings (o : Options) (t : Files.Tree) (env : Settings.Environment) :
    Except Failure Settings :=
  (Settings.load t env o.config).map o.over

/-! ## Tasks -/

/-- The stop of a run, if anything in it failed. -/
def stopOf (r : Report) : Except Stop Unit :=
  if r.isSuccess then .ok () else .error (.failures r.failureCount)

/-- The text of the entity of a definition. -/
def definitionText (policy : Policy) (d : Except Failure Definition) : Except Failure String := do
  return (← Entity.ofDefinition policy (← d)).value.pretty ++ "\n"

/-- Print a text in a workspace, unless there is a failure. -/
def printing (w : Workspace) : Except Failure String → Except Stop Unit × Workspace
  | .ok text => (.ok (), w.print text)
  | .error f => (.error (.failure f), w)

/-- Generate sources. -/
def generating (effect : Command.Effect) (clock : Clock) (s : Settings) (w : Workspace) :
    Except Stop Unit × Workspace :=
  match s.check w.files.isDirectory with
  | .error f => (.error (.failure f), w)
  | .ok () => match generate effect clock s w with
    | (.error f, w) => (.error (.failure f), w)
    | (.ok r, w) => (stopOf r, w.print (summary s r))

/-- Carry out a task. -/
def Task.perform (effect : Command.Effect) (clock : Clock) (s : Settings) (w : Workspace) :
    Task → Except Stop Unit × Workspace
  | options file => printing w (definitionText s.policy (Definition.load w.files file))
  | inspect => printing w do
    s.check w.files.isDirectory
    return batchText s.policy (← Definition.loadAll w.files s.modelsDir)
  | generate => generating effect clock s w

/-! ## Whole command lines -/

/-- Carry out an invocation. -/
def Invocation.perform (effect : Command.Effect) (clock : Clock) (env : Settings.Environment)
    (w : Workspace) : Invocation → Ending × Workspace
  | help => (.success, w.print usage)
  | version => (.success, w.print versionLine)
  | misuse => (⟨2, usage⟩, w)
  | run o task => match o.settings w.files env with
    | .error f => (.of (.error (.failure f)), w)
    | .ok s =>
      let (result, w) := task.perform effect clock s w
      (.of result, w)

/-- Carry out a command line. -/
def perform (effect : Command.Effect) (clock : Clock) (env : Settings.Environment)
    (arguments : List String) (w : Workspace) : Ending × Workspace :=
  (Invocation.ofArguments arguments).perform effect clock env w

end Scaffold.CommandLine
