import Scaffold.Failure
import Scaffold.Files.Tree

/-!
# Loading definitions

  The definition files of a directory are its files whose names end in
  `.json`, in the order of their names. Each one is read on its own, so one
  that cannot be read does not stop the others.
-/

namespace Scaffold

open Files (Tree)

/-- A definition file and what came of reading it. -/
structure Loaded where
  path : Path
  definition : Except Failure Definition

namespace Loaded

/-- The extension of definition files. -/
def extension : String := "json"

/-- What comes of the bytes of a definition file. -/
def ofBytes (path : Path) (bytes : Except Files.Fault ByteArray) : Loaded where
  path := path
  definition := match bytes.bind Tree.textOf with
    | .ok text => Definition.parseFrom path.text text
    | .error f => .error (.files f)

/-- Names in order, by the numbers of their characters. -/
def sorted (names : List String) : List String := names.mergeSort fun a b => decide (a ≤ b)

/-- The definition files among the names in a directory, in order. -/
def filesAmong (isFile : Path → Bool) (dir : Path) (names : List String) : List Path :=
  ((sorted names).map dir.join).filter fun p => isFile p && p.extension? == some extension

end Loaded

namespace Definition

/-- The definition in a file. -/
def load (t : Tree) (p : Path) : Except Failure Definition :=
  (Loaded.ofBytes p (t.read p)).definition

/-- The definitions in a directory; only a directory that cannot be read is a failure. -/
def loadAll (t : Tree) (dir : Path) : Except Failure (List Loaded) :=
  match t.list dir with
  | .ok names => .ok ((Loaded.filesAmong t.isFile dir names).map fun p => .ofBytes p (t.read p))
  | .error f => .error (.files f)

end Definition

end Scaffold
