import Scaffold.Text.Case

/-!
# The first letter of a name

  Only the first character of a name is ever re-cased; capitals inside a name
  such as `inDiVIdual` stay. The mapping is the full one, so the first
  character may become several (`ß` gives `SS`).
-/

namespace Scaffold.Naming

open Text

/-- The first character in upper case, the others as they are. -/
def capitalizeChars : List Char → List Char
  | [] => []
  | c :: cs => upperOf c ++ cs

/-- The first character in lower case, the others as they are. -/
def uncapitalizeChars : List Char → List Char
  | [] => []
  | c :: cs => lowerOf c ++ cs

/-- The name with its first character in upper case. -/
def capitalize (name : String) : String := String.ofList (capitalizeChars name.toList)

/-- The name with its first character in lower case. -/
def uncapitalize (name : String) : String := String.ofList (uncapitalizeChars name.toList)

@[simp] theorem toList_capitalize (name : String) :
    (capitalize name).toList = capitalizeChars name.toList := String.toList_ofList

@[simp] theorem toList_uncapitalize (name : String) :
    (uncapitalize name).toList = uncapitalizeChars name.toList := String.toList_ofList

end Scaffold.Naming
