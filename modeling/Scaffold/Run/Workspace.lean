import Scaffold.Run.Report
import Scaffold.Run.Selection

/-!
# Runs in a workspace

  A workspace is what a run can see and change: a file tree, and what has been
  printed. Definitions are read from it and files written to it, and a command
  may be run on every written file. How a command changes the workspace is not
  settled here; it is given from outside.
-/

namespace Scaffold

/-- What a run can see and change. -/
structure Workspace where
  files : Files.Tree
  printed : String

namespace Workspace

/-- The workspace with a further printed text. -/
def print (w : Workspace) (text : String) : Workspace := { w with printed := w.printed ++ text }

end Workspace

/-! ## Commands -/

/-- A program and its arguments. -/
structure Command where
  program : String
  arguments : List String
  deriving DecidableEq

/-- What commands do to a workspace. -/
abbrev Command.Effect := Command → Workspace → Workspace

namespace Command

/-- The command of a text, word by word; a blank text is no command. -/
def ofText? (text : String) : Option Command :=
  match Text.words text with
  | [] => none
  | program :: arguments => some ⟨program, arguments⟩

/-- The command with a path as last argument. -/
def onPath (c : Command) (p : Path) : Command := { c with arguments := c.arguments ++ [p.text] }

end Command

/-! ## Writing files -/

/-- The writer of files in a workspace. The formatter is run on every file that has been
    written, whatever comes of it. -/
def Workspace.writer (effect : Command.Effect) (formatter : Option Command) :
    Writer Workspace := fun w path text =>
  match w.files.write path text.toUTF8 with
  | (.error f, files) => (.error f, { w with files })
  | (.ok (), files) =>
    let w' : Workspace := { w with files }
    (.ok (), match formatter with
      | some command => effect (command.onPath path) w'
      | none => w')

/-- The writer that settings ask for. -/
def Settings.writer (effect : Command.Effect) (s : Settings) : Writer Workspace :=
  if s.dryRun then Writer.dry
  else Workspace.writer effect (s.formatCommand.bind Command.ofText?)

/-! ## Whole runs -/

/-- The definitions that take part in a run. -/
def Settings.batch (s : Settings) (files : Files.Tree) : Except Failure (List Loaded) := do
  let batch ← Definition.loadAll files s.modelsDir
  return batch.filter (Selection.of s.includeModels s.excludeModels).keeps

/-- A run in a workspace, with a new stamper. -/
def generate (effect : Command.Effect) (clock : Clock) (s : Settings) (w : Workspace) :
    Except Failure Report × Workspace :=
  match s.batch w.files with
  | .error f => (.error f, w)
  | .ok batch =>
    match run s clock (s.writer effect) Stamper.new w batch with
    | (some r, _, w') => (.ok r, w')
    | (none, _, w') => (.error .endOfCalendar, w')

end Scaffold
