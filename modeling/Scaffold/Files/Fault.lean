/-!
# What can go wrong with files

  The causes for which a file or directory cannot be read or written, with
  the wording and number that the operating system gives them.
-/

namespace Scaffold.Files

/-- A cause. -/
inductive Fault where
  | notFound
  | alreadyExists
  | notDirectory
  | isDirectory
  | nameTooLong
  /-- A name holds the character that ends names. -/
  | nulInName
  /-- The bytes of a file are no text. -/
  | notText
  /-- A cause that only its wording tells. -/
  | other (wording : String)
  deriving DecidableEq

/-- The wording of a cause. -/
def Fault.message : Fault → String
  | notFound => "No such file or directory (os error 2)"
  | alreadyExists => "File exists (os error 17)"
  | notDirectory => "Not a directory (os error 20)"
  | isDirectory => "Is a directory (os error 21)"
  | nameTooLong => "File name too long (os error 36)"
  | nulInName => "file name contained an unexpected NUL byte"
  | notText => "stream did not contain valid UTF-8"
  | other wording => wording

end Scaffold.Files
