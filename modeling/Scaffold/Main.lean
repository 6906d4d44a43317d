import Scaffold.CommandLine.Ending
import Std.Time.DateTime.Timestamp

/-!
# The program

  The command line on the files of the system. Everything that is decided is
  decided elsewhere; here files are read and written, and texts are printed.
  The files that settings may come from are copied into a file tree, in which
  they are looked for. Commands are not started.
-/

namespace Scaffold.Program

open CommandLine

/-! ## Files -/

/-- The fault that an error of the system stands for. -/
def faultOf : IO.Error → Files.Fault
  | .noFileOrDirectory .. => .notFound
  | .alreadyExists .. => .alreadyExists
  | e => .other (toString e)

/-- An action, and the fault if it fails. -/
def attempt {α : Type} (action : IO α) : IO (Except Files.Fault α) := do
  match ← action.toBaseIO with
  | .ok a => return .ok a
  | .error e => return .error (faultOf e)

/-- The bytes of a file. -/
def bytesOf (p : Path) : IO (Except Files.Fault ByteArray) := attempt do
  IO.FS.readBinFile ((← IO.currentDir) / p.text)

/-- A directory is there. -/
def isDirectory (p : Path) : IO Bool := do ((← IO.currentDir) / p.text).isDir

/-- Something other than a directory is there. -/
def isFile (p : Path) : IO Bool := do
  let place := (← IO.currentDir) / p.text
  return (← place.pathExists) && !(← place.isDir)

/-- The names in a directory. -/
def namesIn (p : Path) : IO (Except Files.Fault (List String)) := attempt do
  return (← ((← IO.currentDir) / p.text).readDir).toList.map (·.fileName)

/-- Write a file, with the directories above it. -/
def write (p : Path) (text : String) : IO (Except Files.Fault Unit) := attempt do
  let place := (← IO.currentDir) / p.text
  if let some above := place.parent then IO.FS.createDirAll above
  IO.FS.writeFile place text

/-! ## Settings -/

/-- The tree of those of the files that are there. -/
def treeOf (ps : List Path) : IO Files.Tree :=
  ps.foldlM (fun t p => do
    if ← isFile p then
      match ← bytesOf p with
      | .ok bytes => return (t.write p bytes).2
      | .error _ => return t
    else return t) (Files.Tree.empty "here")

/-- The files that settings may come from. -/
def candidates (name : Option Path) : List Path :=
  let p := name.getD Settings.defaultName
  p :: Settings.Format.all.map fun f => p.withSuffix s!".{f.extension}"

/-- The variables of all settings. -/
def variableNames : List String :=
  ["MODELS_DIR", "OUTPUT_DIR", "INCLUDE_MODELS", "EXCLUDE_MODELS", "GENERATE_MIGRATIONS",
    "STRICT_ASSOCIATIONS", "FORMAT_COMMAND", "DRY_RUN", "LOG_LEVEL"].map ("CRUDGEN_CODEGEN_" ++ ·)

/-- The environment, as far as it is about settings. -/
def environment : IO Settings.Environment := do
  let es ← variableNames.filterMapM fun name => return (← IO.getEnv name).map (name, ·)
  return .ofList es

/-! ## Tasks -/

/-- The definitions in a directory. -/
def batchIn (dir : Path) : IO (Except Failure (List Loaded)) := do
  match ← namesIn dir with
  | .error f => return .error (.files f)
  | .ok names =>
    let files ← (names.map dir.join).filterM isFile
    let ps := Loaded.filesAmong files.contains dir names
    return .ok (← ps.mapM fun p => return Loaded.ofBytes p (← bytesOf p))

/-- What the clock shows. -/
def now : IO Clock := do
  let seconds := (← Std.Time.Timestamp.now).toSecondsSinceUnixEpoch.toInt
  match Moment.ofSeconds? seconds with
  | some t => return fun _ => ⟨t, 0⟩
  | none => throw (IO.userError "the clock is not set")

/-- Try to write one file. -/
def carryOut (s : Settings) (a : Attempt) : IO Outcome := do
  match a.content with
  | .error f => return ⟨a.template, a.path, .error f⟩
  | .ok text =>
    let result ← if s.dryRun then pure (.ok ()) else write a.path text
    return ⟨a.template, a.path, result.mapError (.write a.path.text)⟩

/-- Generate sources from a batch. -/
def generating (s : Settings) (batch : List Loaded) : IO (Except Stop Unit) := do
  let batch := batch.filter (Selection.of s.includeModels s.excludeModels).keeps
  match attempts s (← now) Stamper.new batch with
  | (none, _) => return .error (.failure .endOfCalendar)
  | (some as, _) =>
    let outcomes ← as.mapM (carryOut s)
    let report := Report.of (assembled s.policy batch) (leftOut s.policy batch) outcomes
    IO.print (summary s report)
    return stopOf report

/-- Print a text, unless there is a failure. -/
def printed : Except Failure String → IO (Except Stop Unit)
  | .ok text => do
    IO.print text
    return .ok ()
  | .error f => return .error (.failure f)

/-- Carry out a task. -/
def perform (s : Settings) (task : Task) : IO (Except Stop Unit) := do
  match task with
  | .options file =>
    printed (definitionText s.policy (Loaded.ofBytes file (← bytesOf file)).definition)
  | .inspect | .generate =>
    let there ← isDirectory s.modelsDir
    match s.check fun _ => there with
    | .error f => return .error (.failure f)
    | .ok () => match ← batchIn s.modelsDir with
      | .error f => return .error (.failure f)
      | .ok batch =>
        if task = .inspect then printed (.ok (batchText s.policy batch)) else generating s batch

/-- Carry out an invocation. -/
def answer : Invocation → IO Ending
  | .help => do
    IO.print usage
    return .success
  | .version => do
    IO.print versionLine
    return .success
  | .misuse => return ⟨2, usage⟩
  | .run o task => do
    match o.settings (← treeOf (candidates o.config)) (← environment) with
    | .error f => return .of (.error (.failure f))
    | .ok s => return .of (← perform s task)

end Scaffold.Program

/-- The command line of the program. -/
def main (arguments : List String) : IO UInt32 := do
  let ending ← Scaffold.Program.answer (.ofArguments arguments)
  IO.eprint ending.message
  return ending.code.toUInt32
