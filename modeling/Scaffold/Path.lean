import Scaffold.Text.Blank

/-!
# Paths

  A path is a text whose pieces are set apart by slashes. Empty pieces and
  single dots mean nothing, except for a dot at the front of a relative path.
-/

namespace Scaffold

/-- A path. -/
structure Path where
  text : String
  deriving DecidableEq, Inhabited

namespace Path

variable (p : Path)

/-- The path begins at the root. -/
def isAbsolute : Bool := p.text.toList.head? == some '/'

/-- The path with further pieces behind it. An absolute path stands for itself, and a slash
    is added where the path does not end in one. -/
def join (q : String) : Path :=
  if q.toList.head? == some '/' then ⟨q⟩
  else if p.text.isEmpty || p.text.toList.getLast? == some '/' then ⟨p.text ++ q⟩
  else ⟨p.text ++ "/" ++ q⟩

/-- The pieces between the slashes. -/
def pieces : List String := (Text.splitAt '/' p.text.toList).map String.ofList

/-- A piece that means something, behind the pieces `before` it. -/
def counts (before : List String) (piece : String) : Bool :=
  !piece.isEmpty && (piece != "." || before.isEmpty)

/-- Pieces in reverse, without those at the end that mean nothing. -/
def strip : List String → List String
  | [] => []
  | piece :: before => if counts before piece then piece :: before else strip before

/-- The path without its last piece. -/
def parent? : Option Path :=
  match strip p.pieces.reverse with
  | [] => none
  | _ :: before => match strip before with
    | [] => some ⟨if p.isAbsolute then "/" else ""⟩
    | rest => some ⟨"/".intercalate rest.reverse⟩

/-- The last piece, unless it leads elsewhere. -/
def fileName? : Option String :=
  match strip p.pieces.reverse with
  | [] => none
  | piece :: _ => if piece = "." || piece = ".." then none else some piece

/-- The path with a suffix on its last piece, unless that leads elsewhere. -/
def withSuffix (suffix : String) : Path :=
  match strip p.pieces.reverse with
  | [] => p
  | piece :: before =>
    if piece = "." || piece = ".." then p
    else ⟨"/".intercalate (before.reverse ++ [piece ++ suffix])⟩

/-- What follows the last dot of the last piece; a dot at the front does not count. -/
def extension? : Option String := do
  let name ← p.fileName?
  let behind := name.toList.reverse.takeWhile (· != '.')
  if behind.length + 1 < name.length then some (String.ofList behind.reverse) else none

end Path

end Scaffold
