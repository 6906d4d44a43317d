import Scaffold.Proofs.Naming.Capitalized

/-!
# What a plural keeps

  A plural takes only letters off the end of a name: a listed noun, or an ending
  that is one of the letters the rules ask for. So whatever is no letter is still
  there in the plural, wherever it stands.
-/

namespace Scaffold.Naming

open Text

variable {name : List Char} {key' : String}

/-- What an inflection of the name takes off. -/
def Inflection.taken (i : Inflection) (name : List Char) : List Char :=
  name.drop (name.length - i.dropped)

end Scaffold.Naming
