import Scaffold.Association.Kind
import Scaffold.Definition.Basic
import Scaffold.Naming.Plural

/-!
# Associations of a known kind

  A declared association whose kind has been recognised, and the spellings of
  its names that generated code needs. Associations are grouped by shape: a
  group keeps declaration order, and the groups are listed in a fixed order.
-/

namespace Scaffold

open Naming
open Json (Value)

/-- A declared association of a known kind. -/
structure Association where
  name : String
  kind : Kind
  spec : Association.Spec
  deriving DecidableEq

namespace Association

variable (a : Association)

/-- How the two sides are tied together. -/
def shape : Shape := a.kind.shape

/-- How many records stand on the other side. -/
def arity : Arity := a.kind.arity

/-- The entity on the other side. -/
def target : String := a.spec.target

/-! ## Spellings -/

def nameLc : String := uncapitalize a.name
def nameCp : String := capitalize a.name
def targetLc : String := uncapitalize a.target
def targetCp : String := capitalize a.target
def targetPl : String := pluralize a.target

/-- The table of the other side. -/
def targetLcPl : String := pluralize a.targetLc

def targetCpPl : String := capitalize a.targetPl

/-! ## Keys -/

/-- The foreign key of a belongs-to association. -/
def targetKey : String := a.spec.targetKey.getD ""

/-- The join table of a many-to-many association. -/
def keysIn : String := a.spec.keysIn.getD ""

/-- The association as JSON; absent keys are null. -/
def value : Value :=
  .object [("name", .text a.name), ("nameLc", .text a.nameLc), ("nameCp", .text a.nameCp),
    ("kind", .text a.kind.name), ("shape", .text a.shape.name), ("target", .text a.target),
    ("targetLc", .text a.targetLc), ("targetLcPl", .text a.targetLcPl),
    ("targetPl", .text a.targetPl), ("targetCp", .text a.targetCp),
    ("targetCpPl", .text a.targetCpPl), ("targetStorageType", .text a.spec.targetStorage.name),
    ("targetKey", .ofText? a.spec.targetKey), ("sourceKey", .ofText? a.spec.sourceKey),
    ("keysIn", .ofText? a.spec.keysIn)]

/-! ## Groups -/

/-- Associations, in declaration order, that are looked at shape by shape. -/
structure Groups where
  members : List Association
  deriving DecidableEq

namespace Groups

variable (g : Groups)

/-- The associations of one shape, in declaration order. -/
def ofShape (s : Shape) : List Association := g.members.filter (·.shape == s)

/-- All associations, group by group. -/
def listed : List Association := Shape.all.flatMap g.ofShape

/-- How many associations there are. -/
def size : Nat := Shape.all.foldl (fun n s => n + (g.ofShape s).length) 0

/-- There is no association. -/
def isEmpty : Bool := g.size == 0

/-- There is an association of that name. -/
def contains (name : String) : Bool := g.listed.any (·.name == name)

/-- The groups as JSON; every shape is there. -/
def value : Value :=
  .object (Shape.all.map fun s => (s.name, .array ((g.ofShape s).map Association.value)))

end Groups

end Association

end Scaffold
