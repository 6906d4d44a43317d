import Scaffold.Json.Tree

/-!
# Records

  A record has named fields, each with a reader of its own and perhaps with a
  fallback. In a document it is an object with the fields as members in any
  order, among members that are of no concern, or an array of the fields in
  declaration order. Reading goes from left to right and stops at the first
  fault: a broken document, a field that comes twice, a value that its field
  does not accept. What is lacking shows only at the closing bracket.
-/

namespace Scaffold.Json

/-- Why a document cannot be read: it is no JSON, or for a cause of its content. -/
inductive ReadError (Cause : Type) where
  | notJson
  | content (cause : Cause)
  deriving DecidableEq

/-- The wordings of causes that every record knows. -/
class RecordCause (Cause : Type) where
  repeated : String → Cause
  missing : String → Cause
  tooShort : Nat → String → Nat → Cause

/-- The fields of a record of type `R`. -/
structure Record (Cause R : Type) where
  /-- What messages call the record. -/
  title : String
  Field : Type
  decEq : DecidableEq Field
  /-- The fields in declaration order. -/
  fields : List Field
  name : Field → String
  Value : Field → Type
  read : (f : Field) → Tree → Except (ReadError Cause) (Value f)
  /-- The value of a field that is not given. -/
  fallback : (f : Field) → Option (Value f)
  /-- Put the fields together, asking for them in declaration order. -/
  assemble : {E : Type} → ((f : Field) → Except E (Value f)) → Except E R

namespace Record

variable {Cause R : Type} (r : Record Cause R)

/-- The fields that have been read. -/
abbrev Draft := (f : r.Field) → Option (r.Value f)

/-- Nothing has been read. -/
def noField : r.Draft := fun _ => none

/-- A further field. -/
def set (d : r.Draft) (f : r.Field) (v : r.Value f) : r.Draft :=
  fun g => match r.decEq f g with
    | isTrue h => some (h ▸ v)
    | isFalse _ => d g

/-- The field of a name. -/
def field? (key : String) : Option r.Field := r.fields.find? (r.name · == key)

/-- The record of the fields that have been read, with `lack` for the ones that are lacking. -/
def complete (d : r.Draft) (lack : r.Field → Cause) : Except (ReadError Cause) R :=
  r.assemble fun f => match (d f).or (r.fallback f) with
    | some v => .ok v
    | none => .error (.content (lack f))

variable [RecordCause Cause]

/-- One member of an object. -/
def member (d : r.Draft) (m : List Piece × Tree) : Except (ReadError Cause) r.Draft :=
  match Piece.decode m.1 with
  | none => .error .notJson
  | some key => match r.field? (String.ofList key) with
    | none => if m.2.intact then .ok d else .error .notJson
    | some f =>
      if (d f).isSome then .error (.content (RecordCause.repeated (r.name f)))
      else (r.read f m.2).map (r.set d f)

/-- The items of an array, for the fields that are still to come. -/
def positional : List r.Field → r.Draft → List Tree → Except (ReadError Cause) r.Draft
  | _, d, [] => .ok d
  | [], _, _ :: _ => .error .notJson
  | f :: fs, d, t :: ts => do
    let v ← r.read f t
    positional fs (r.set d f v) ts

/-- A record in a document; `otherwise` answers for what is neither object nor array. -/
def ofTree (otherwise : Tree → ReadError Cause) : Tree → Except (ReadError Cause) R
  | .object members closed => do
    let d ← members.foldlM r.member r.noField
    if closed then r.complete d (RecordCause.missing ∘ r.name) else .error .notJson
  | .array items closed => do
    let d ← r.positional r.fields r.noField items
    if closed then
      r.complete d fun _ => RecordCause.tooShort items.length r.title r.fields.length
    else .error .notJson
  | t => .error (otherwise t)

end Record

end Scaffold.Json
