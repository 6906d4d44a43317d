import Scaffold.Entity
import Scaffold.Source
import Scaffold.Text.Case

/-!
# Remote models

  The model class of an entity whose records live behind a remote service. It
  holds the fields of a record; the access to the records is left open.
-/

namespace Scaffold

open Source

/-- A model class without data access. -/
structure RemoteModel where
  name : String
  /-- The environment variable that holds the address of the service. -/
  address : String
  fields : List String
  deriving DecidableEq

namespace RemoteModel

/-- The remote model of an entity. -/
def of (e : Entity) : RemoteModel :=
  { name := e.name
    address := s!"{Text.upper e.namePl}_REMOTE_URL"
    fields := Attributes.identifier :: e.attributes.others.map Prod.fst }

/-- The methods that are left open, with their parameters. -/
def openMethods : List (String × String) :=
  [("readById", "id"), ("readAll", "search, order, pagination"), ("countRecords", "search"),
    ("addOne", "input"), ("deleteOne", "id"), ("updateOne", "input"), ("bulkAddCsv", "context"),
    ("csvTableTemplate", "")]

variable (m : RemoteModel)

/-- The constructor, which takes the fields of a record. -/
def constructorSource : Source :=
  let fields := ", ".intercalate m.fields
  block s!"constructor(\x7b {fields} \x7d) "
    (lines (m.fields.map fun f => s!"this.{f} = {f};"))

/-- A method that is left open. -/
def methodSource (method : String × String) : Source :=
  let (name, parameters) := method
  block s!"static {name}({parameters}) "
    (lines [s!"throw new Error('{m.name}.{name} is not implemented for remote service ' + remoteUrl);"])

/-- The remote model as source text. -/
def source : Source :=
  lines ["const axios = require('axios');"] ++ gap ++
  lines [s!"const remoteUrl = process.env.{m.address} || '';"] ++ gap ++
  block s!"module.exports = class {m.name} "
    (gap ++ spaced ([constructorSource m] ++ openMethods.map (methodSource m) ++
      [block "getIdValue() " (lines ["return this.id;"])])) ";"

/-- The text of the remote model. -/
def text : String := m.source.text 4

end RemoteModel

end Scaffold
