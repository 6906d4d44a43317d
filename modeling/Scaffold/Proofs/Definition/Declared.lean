import Scaffold.Proofs.Definition.RoundTrip
import Scaffold.Proofs.Json.Given

/-!
# The attributes that a text declares

  The members of the object of attributes are pairs of texts, in some order
  and perhaps with keys that come again. They are written in turn into an empty
  dictionary, so what a definition has of them are the different keys in the
  order in which they first come, each with its last value.
-/

namespace Scaffold.Definition

open Json

/-! ## Pairs of texts -/

end Scaffold.Definition
