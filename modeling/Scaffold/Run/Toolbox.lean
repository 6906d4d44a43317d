import Scaffold.Run.Workspace

/-!
# Common commands

  What a few commands of every system do to a workspace: they print words or
  files, copy, make and remove files, or do nothing. A command that is not
  among them does nothing either, as if it could not be started.
-/

namespace Scaffold.Toolbox

/-- An argument that consists of a dash and some of these letters. -/
def isOption (letters : List Char) (argument : String) : Bool :=
  match argument.toList with
  | '-' :: c :: cs => (c :: cs).all letters.contains
  | _ => false

/-- Print words; the option `n` leaves out the line break. -/
def echo (arguments : List String) (w : Workspace) : Workspace :=
  let options := arguments.takeWhile (isOption ['n', 'e', 'E'])
  let words := arguments.dropWhile (isOption ['n', 'e', 'E'])
  let lineBreak := if options.any (·.toList.contains 'n') then "" else "\n"
  w.print (" ".intercalate words ++ lineBreak)

/-- The bytes of a file; the null device is empty. -/
def contents (w : Workspace) (path : String) : Except Files.Fault ByteArray :=
  if path = "/dev/null" then .ok ByteArray.empty else w.files.read ⟨path⟩

/-- Print files, as far as they can be read. -/
def cat (arguments : List String) (w : Workspace) : Workspace :=
  arguments.foldl (fun w path => match contents w path with
    | .ok bytes => w.print ((String.fromUTF8? bytes).getD "")
    | .error _ => w) w

/-- The workspace after a change of its files, if the change is possible. -/
def change (w : Workspace) : Except Files.Fault Files.Tree → Workspace
  | .ok files => { w with files }
  | .error _ => w

/-- Copy one file to another place. -/
def cp (arguments : List String) (w : Workspace) : Workspace :=
  match arguments with
  | [source, target] => match contents w source with
    | .ok bytes => change w (w.files.writeFile ⟨target⟩ bytes)
    | .error _ => w
  | _ => w

/-- Make files that are not there. -/
def touch (arguments : List String) (w : Workspace) : Workspace :=
  arguments.foldl (fun w path => match w.files.find ⟨path⟩ with
    | .ok _ => w
    | .error _ => change w (w.files.writeFile ⟨path⟩ ByteArray.empty)) w

/-- Remove files. -/
def rm (arguments : List String) (w : Workspace) : Workspace :=
  (arguments.filter fun a => !isOption ['f'] a).foldl (fun w path =>
    match w.files.find ⟨path⟩ with
    | .ok l => if w.files.isDirectoryAt l then w else { w with files := w.files.erase l }
    | .error _ => w) w

/-- The name of a program, without the directory of the system's own programs. -/
def name (program : String) : String :=
  match ["/usr/bin/", "/bin/"].find? (·.toList.isPrefixOf program.toList) with
  | some dir => String.ofList (program.toList.drop dir.length)
  | none => program

/-- What common commands do. -/
def effect : Command.Effect := fun c => match name c.program with
  | "echo" => echo c.arguments
  | "cat" => cat c.arguments
  | "cp" => cp c.arguments
  | "touch" => touch c.arguments
  | "rm" => rm c.arguments
  | _ => id

end Scaffold.Toolbox
