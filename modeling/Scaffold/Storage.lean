import Scaffold.Text.Case

/-!
# Where records live

  An entity keeps its records either in a relational table or behind a remote
  service. The name of a storage is read in any letter case and written in
  lower case.
-/

namespace Scaffold

/-- Where the records of an entity live. -/
inductive Storage where
  /-- A relational table. -/
  | sql
  /-- A remote service with a reading interface of its own. -/
  | webservice
  deriving DecidableEq, Inhabited

namespace Storage

/-- The name of a storage. -/
def name : Storage → String
  | sql => "sql"
  | webservice => "webservice"

/-- Only tables are relational. -/
def isRelational : Storage → Bool
  | sql => true
  | webservice => false

/-- A name that is no storage's, in lower case. -/
structure Unknown where
  given : String
  deriving DecidableEq

/-- What is said about an unknown name. -/
def Unknown.message (u : Unknown) : String :=
  s!"unknown storage type '{u.given}' (expected 'sql' or 'webservice')"

/-- The storage of a name in any letter case. -/
def ofName (text : String) : Except Unknown Storage :=
  let key := Text.lower text
  if key = "sql" then .ok sql
  else if key = "webservice" then .ok webservice
  else .error ⟨key⟩

end Storage

end Scaffold
