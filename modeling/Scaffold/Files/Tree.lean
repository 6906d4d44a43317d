import Scaffold.Dict
import Scaffold.Files.Fault
import Scaffold.Path

/-!
# File trees

  Files and directories by their location, the names on the way from the root,
  and the operations of an operating system on them: a path is followed piece
  by piece from the root or from the current directory, and every operation
  either fails for a cause or does its work. There are no links.
-/

namespace Scaffold.Files

/-- The names on the way from the root to a file or directory, the last one first. -/
abbrev Location := List String

/-- What stands at a location. -/
inductive Node where
  | file (bytes : ByteArray)
  | directory

/-- A file tree and the directory from which relative paths start. The root is always there. -/
structure Tree where
  entries : List (Location × Node)
  distinct : (entries.map Prod.fst).Nodup
  current : Location

namespace Tree

/-- The tree that holds nothing but the current directory and the ones above it. -/
def empty (name : String) : Tree := ⟨[([name], .directory)], by simp, [name]⟩

variable (t : Tree)

/-- What stands at a location. -/
def node? : Location → Option Node
  | [] => some .directory
  | l => t.entries.lookup l

/-- A directory stands there. -/
def isDirectoryAt (l : Location) : Bool :=
  match t.node? l with
  | some .directory => true
  | _ => false

/-- The tree with a node at a location. -/
def set (l : Location) (n : Node) : Tree :=
  ⟨putEntry l n t.entries, nodup_putEntry l n t.distinct, t.current⟩

/-- The tree without the node at a location. -/
def erase (l : Location) : Tree :=
  ⟨t.entries.filter fun e => e.1 != l, (List.filter_sublist.map Prod.fst).nodup t.distinct,
    t.current⟩

/-- The names in a directory. -/
def namesAt (l : Location) : List String :=
  t.entries.filterMap fun e => match e.1 with
    | name :: above => if above = l then some name else none
    | [] => none

/-! ## Following paths -/

/-- The longest name, in bytes. -/
def nameLimit : Nat := 255

/-- The length at which a path is too long, in bytes. -/
def pathLimit : Nat := 4096

/-- The name of an entry of a directory, if it can be one. -/
def entryIn (l : Location) (name : String) : Except Fault Location :=
  if !t.isDirectoryAt l then .error .notDirectory
  else if nameLimit < name.utf8ByteSize then .error .nameTooLong
  else .ok (name :: l)

/-- Follow one piece of a path. -/
def step (l : Location) (piece : String) : Except Fault Location :=
  if piece = "." || piece = ".." then
    if t.isDirectoryAt l then .ok (if piece = "." then l else l.tail) else .error .notDirectory
  else do
    let child ← t.entryIn l piece
    if (t.node? child).isSome then return child else throw .notFound

/-- The pieces of a path that can be followed at all, and where they start. -/
def start (p : Path) : Except Fault (Location × List String) :=
  if p.text.toList.contains '\x00' then .error .nulInName
  else if p.text.isEmpty then .error .notFound
  else if pathLimit ≤ p.text.utf8ByteSize then .error .nameTooLong
  else .ok (if p.isAbsolute then [] else t.current, p.pieces.filter (!·.isEmpty))

/-- A slash at the end, behind which only a directory can stand. -/
def endsInSlash (p : Path) : Bool := p.text.toList.getLast? == some '/'

/-- The location of a file or directory that exists. -/
def find (p : Path) : Except Fault Location := do
  let (l, pieces) ← t.start p
  let l ← pieces.foldlM t.step l
  if endsInSlash p && !t.isDirectoryAt l then throw .notDirectory
  return l

/-- Where the last piece of a path stands or would stand: in a directory, under a name, unless
    the path ends in a piece that is no name. -/
def place (p : Path) : Except Fault (Location × Option String) := do
  let (l, pieces) ← t.start p
  match pieces.reverse with
  | [] => return (l, none)
  | last :: before =>
    let l ← before.reverse.foldlM t.step l
    if last = "." || last = ".." then return (← t.step l last, none)
    if !t.isDirectoryAt l then throw .notDirectory
    return (l, some last)

/-! ## Looking -/

/-- The path leads to a directory. -/
def isDirectory (p : Path) : Bool :=
  match t.find p with
  | .ok l => t.isDirectoryAt l
  | .error _ => false

/-- The path leads to a file. -/
def isFile (p : Path) : Bool :=
  match t.find p with
  | .ok l => !t.isDirectoryAt l
  | .error _ => false

/-- The bytes of a file. -/
def read (p : Path) : Except Fault ByteArray := do
  let l ← t.find p
  match t.node? l with
  | some (.file bytes) => return bytes
  | some .directory => throw .isDirectory
  | none => throw .notFound

/-- The text of bytes. -/
def textOf (bytes : ByteArray) : Except Fault String :=
  match String.fromUTF8? bytes with
  | some s => .ok s
  | none => .error .notText

/-- The text of a file. -/
def readText (p : Path) : Except Fault String := do textOf (← t.read p)

/-- The names in a directory, in no particular order. -/
def list (p : Path) : Except Fault (List String) := do
  let l ← t.find p
  if t.isDirectoryAt l then return t.namesAt l else throw .notDirectory

/-! ## Changing -/

/-- Make one directory. -/
def makeDirectory (p : Path) : Except Fault Tree := do
  match ← t.place p with
  | (_, none) => throw .alreadyExists
  | (l, some name) =>
    let child ← t.entryIn l name
    if (t.node? child).isSome then throw .alreadyExists
    return t.set child .directory

/-- Make a directory and those above it, if they are not there. The fuel bounds the length of
    the way up. -/
def makeDirectoriesFuel : Nat → Path → Tree → Except Fault Unit × Tree
  | 0, _, t => (.error .notFound, t)
  | fuel + 1, p, t =>
    if p.text.isEmpty then (.ok (), t)
    else match t.makeDirectory p with
      | .ok t' => (.ok (), t')
      | .error .notFound => match p.parent? with
        | none => (.error .notFound, t)
        | some above => match makeDirectoriesFuel fuel above t with
          | (.error f, t') => (.error f, t')
          | (.ok (), t') => match t'.makeDirectory p with
            | .ok t'' => (.ok (), t'')
            | .error f => (if t'.isDirectory p then .ok () else .error f, t')
      | .error f => (if t.isDirectory p then .ok () else .error f, t)

/-- Make a directory and those above it, if they are not there. -/
def makeDirectories (p : Path) (t : Tree) : Except Fault Unit × Tree :=
  makeDirectoriesFuel (p.text.length + 1) p t

/-- Write a file in a directory that is there. -/
def writeFile (p : Path) (bytes : ByteArray) : Except Fault Tree := do
  match ← t.place p with
  | (_, none) => throw .isDirectory
  | (l, some name) =>
    if endsInSlash p then throw .isDirectory
    let child ← t.entryIn l name
    if t.isDirectoryAt child then throw .isDirectory
    return t.set child (.file bytes)

/-- Write a file, with the directories above it. What has been made stays when the writing
    fails. -/
def write (t : Tree) (p : Path) (bytes : ByteArray) : Except Fault Unit × Tree :=
  let (made, t') := match p.parent? with
    | some above => makeDirectories above t
    | none => (.ok (), t)
  match made with
  | .error f => (.error f, t')
  | .ok () => match t'.writeFile p bytes with
    | .ok t'' => (.ok (), t'')
    | .error f => (.error f, t')

end Tree

end Scaffold.Files
