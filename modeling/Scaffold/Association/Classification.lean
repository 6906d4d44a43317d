import Scaffold.Association.Basic
import Scaffold.Failure

/-!
# Classification of associations

  Every declared association of an entity is resolved to one of a known kind,
  or, where a policy allows it, set aside as unsupported. The resolved ones are
  then told apart twice: by arity, and by who answers for them. Two tables can
  be joined by the database itself, so an association between them is implicit;
  every other one needs a resolver of its own.
-/

namespace Scaffold

open Naming
open Json (Value)

/-- What happens to an association of an unknown kind. -/
inductive Policy where
  /-- The entity fails. -/
  | reject
  /-- The association is set aside. -/
  | skip
  deriving DecidableEq

/-- The type of the foreign keys that mutations take. -/
def foreignKeyType : String := "Int"

/-! ## Resolving one association -/

/-- What becomes of a declared association. -/
inductive Resolution where
  | known (a : Association)
  | unsupported (name kind : String)
  deriving DecidableEq

/-- The key that an association of this kind needs and does not have. -/
def Association.Spec.lacks (s : Association.Spec) (kind : Kind) : Option String :=
  match kind.shape with
  | .belongsTo => if s.targetKey.isNone then some "targetKey" else none
  | .belongsToMany => if s.keysIn.isNone then some "keysIn" else none
  | .hasOne | .hasMany => none

/-- Resolve an association under a policy. -/
def Resolution.of (policy : Policy) (name : String) (s : Association.Spec) :
    Except Failure Resolution :=
  match Kind.ofName? s.kind with
  | none => match policy with
    | .reject => .error (.unsupportedKind name s.kind)
    | .skip => .ok (.unsupported name s.kind)
  | some kind => match s.lacks kind with
    | some key => .error (.malformed s!"association '{name}'" (.keyRequired kind key))
    | none => .ok (.known ⟨name, kind, s⟩)

/-- The association, if its kind is known. -/
def Resolution.known? : Resolution → Option Association
  | known a => some a
  | unsupported _ _ => none

/-- Name and kind, if the kind is unknown. -/
def Resolution.unsupported? : Resolution → Option (String × String)
  | known _ => none
  | unsupported name kind => some (name, kind)

/-! ## All associations of an entity -/

/-- The associations of an entity, told apart. -/
structure Classification where
  /-- Targets of the associations with many records on the other side. -/
  many : Dict String
  /-- Targets of the associations with one record on the other side. -/
  one : Dict String
  /-- The associations that need a resolver of their own. -/
  explicit : Association.Groups
  /-- The associations between two tables. -/
  implicit : Association.Groups
  /-- The foreign keys that mutations take. -/
  foreignKeys : Attributes
  /-- Names and kinds of the associations that were set aside. -/
  unsupported : List (String × String)
  deriving DecidableEq

namespace Classification

/-- The association is implicit for an owner in that storage. -/
def isImplicit (owner : Storage) (a : Association) : Bool :=
  owner.isRelational && a.spec.targetStorage.isRelational

/-- The targets of the associations of one arity. -/
def targets (arity : Arity) (known : List Association) : Dict String :=
  .ofList ((known.filter (·.arity == arity)).map fun a => (a.name, a.target))

/-- The foreign keys that belongs-to associations bring. -/
def keysOf (known : List Association) : Attributes :=
  .ofList ((known.filter (·.shape == .belongsTo)).filterMap fun a =>
    a.spec.targetKey.map (·, foreignKeyType))

/-- Tell resolved associations apart. -/
def ofResolutions (owner : Storage) (rs : List Resolution) : Classification :=
  let known := rs.filterMap Resolution.known?
  { many := targets .many known
    one := targets .one known
    explicit := ⟨known.filter fun a => !isImplicit owner a⟩
    implicit := ⟨known.filter (isImplicit owner)⟩
    foreignKeys := keysOf known
    unsupported := rs.filterMap Resolution.unsupported? }

/-- Classify the associations of an entity; the first one that fails decides. -/
def of (owner : Storage) (policy : Policy) (specs : Dict Association.Spec) :
    Except Failure Classification := do
  let rs ← specs.entries.mapM fun (name, s) => Resolution.of policy name s
  return ofResolutions owner rs

variable (c : Classification)

/-- How many associations have been classified. -/
def size : Nat := c.explicit.size + c.implicit.size

/-- The foreign keys as a parameter list. -/
def mutationAttributes : String := c.foreignKeys.flat

/-- A target with its spellings as JSON. -/
def targetValue (target : String) : Value :=
  .object [("target", .text target), ("targetCp", .text (capitalize target)),
    ("targetCpPl", .text (capitalize (pluralize target)))]

/-- The classification as JSON. -/
def value : Value :=
  .object [
    ("schemaAttributesMany", .object (c.many.entries.map fun (k, t) => (k, targetValue t))),
    ("schemaAttributesOne", .object (c.one.entries.map fun (k, t) => (k, .text t))),
    ("explicitResolvers", c.explicit.value),
    ("implicitAssociations", c.implicit.value),
    ("mutationAttributes", .text c.mutationAttributes),
    ("unsupported", .array (c.unsupported.map fun (name, kind) =>
      .object [("name", .text name), ("kind", .text kind)]))]

end Classification

end Scaffold
