import Scaffold.Run.Workspace
import Scaffold.Settings.Manifest

/-!
# Runs inside a build

  A build takes its settings from the manifest of the package. It says which
  files it depends on before it starts, and it fails when anything in it does.
-/

namespace Scaffold

/-- The line that tells the build system about a file or directory on which the build depends. -/
def dependencyLine (p : Path) : String := s!"cargo:rerun-if-changed={p.text}\n"

/-- A run with the settings in the manifest that the environment names. -/
def build (effect : Command.Effect) (clock : Clock) (env : Settings.Environment) (w : Workspace) :
    Except Failure Report × Workspace :=
  match Settings.manifestPath env, Settings.ofManifest w.files env with
  | .ok manifest, .ok s =>
    let w := w.print (dependencyLine s.modelsDir ++ dependencyLine manifest)
    let (report, w) := generate effect clock s w
    (report.bind Report.toResult, w)
  | .error f, _ => (.error f, w)
  | _, .error f => (.error f, w)

end Scaffold
