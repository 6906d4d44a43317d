import Scaffold.Definition.Basic
import Scaffold.Definition.Fault
import Scaffold.Json.Record
import Scaffold.Text.Blank

/-!
# Reading entity definitions

  A definition is read from a JSON text, from left to right; the first problem
  met decides the answer. After that the names in it are checked, because
  generated code cannot do without them.
-/

namespace Scaffold.Definition

open Json

/-- Why a text is no definition. -/
abbrev ReadError := Json.ReadError Fault

instance : RecordCause Fault where
  repeated := Fault.repeated
  missing := Fault.missing
  tooShort := Fault.tooShort

/-! ## Single values -/

/-- The error for a value where something else is expected. -/
def mismatch (expected : String) : Tree → ReadError
  | .null => .content (.wrongType .null expected)
  | .bool b => .content (.wrongType (.boolean b) expected)
  | .number n => match n.value with
    | .integer i => .content (.wrongType (.integer i) expected)
    | .double negative m => .content (.wrongType (.double negative m) expected)
    | .outOfRange => .notJson
  | .text ps => match Piece.decode ps with
    | some cs => .content (.wrongType (.text (String.ofList cs)) expected)
    | none => .notJson
  | .array _ _ => .content (.wrongType .sequence expected)
  | .object _ _ => .content (.wrongType .map expected)
  | .broken => .notJson

/-- A text. -/
def readText : Tree → Except ReadError String
  | .text ps => match Piece.decode ps with
    | some cs => .ok (String.ofList cs)
    | none => .error .notJson
  | t => .error (mismatch "a string" t)

/-- A text, or null in its absence. -/
def readOptional : Tree → Except ReadError (Option String)
  | .null => .ok none
  | t => (readText t).map some

/-- The name of a storage. -/
def readStorage (t : Tree) : Except ReadError Storage := do
  match Storage.ofName (← readText t) with
  | .ok s => .ok s
  | .error u => .error (.content (.unknownStorage u))

/-- A dictionary; a repeated key keeps its place and takes the last value. -/
def readDict {α : Type} (read : Tree → Except ReadError α) : Tree → Except ReadError (Dict α)
  | .object members closed => do
    let d ← members.foldlM (fun d (key, t) => match Piece.decode key with
      | none => .error .notJson
      | some k => do return d.insert (String.ofList k) (← read t)) Dict.empty
    if closed then .ok d else .error .notJson
  | t => .error (mismatch "a map" t)

/-- A list of texts. -/
def readTexts : Tree → Except ReadError (List String)
  | .array items closed => do
    let texts ← items.mapM readText
    if closed then .ok texts else .error .notJson
  | t => .error (mismatch "a sequence" t)

/-! ## Associations -/

/-- The fields of an association. -/
inductive AssociationField where
  | type
  | target
  | targetStorageType
  | targetKey
  | sourceKey
  | keysIn
  deriving DecidableEq

namespace AssociationField

/-- The name of a field. -/
def name : AssociationField → String
  | type => "type"
  | target => "target"
  | targetStorageType => "targetStorageType"
  | targetKey => "targetKey"
  | sourceKey => "sourceKey"
  | keysIn => "keysIn"

/-- The type of a field. -/
def Value : AssociationField → Type
  | type | target => String
  | targetStorageType => Storage
  | targetKey | sourceKey | keysIn => Option String

/-- The reader of a field. -/
def read : (f : AssociationField) → Tree → Except ReadError f.Value
  | type | target => readText
  | targetStorageType => readStorage
  | targetKey | sourceKey | keysIn => readOptional

/-- Keys may be absent. -/
def fallback : (f : AssociationField) → Option f.Value
  | type | target | targetStorageType => none
  | targetKey | sourceKey | keysIn => some (none : Option String)

end AssociationField

/-- Associations as records. -/
def associationRecord : Record Fault Association.Spec where
  title := "struct AssociationSpec"
  Field := AssociationField
  decEq := inferInstance
  fields := [.type, .target, .targetStorageType, .targetKey, .sourceKey, .keysIn]
  name := AssociationField.name
  Value := AssociationField.Value
  read := AssociationField.read
  fallback := AssociationField.fallback
  assemble get := do
    let kind : String ← get .type
    let target : String ← get .target
    let targetStorage : Storage ← get .targetStorageType
    let targetKey : Option String ← get .targetKey
    let sourceKey : Option String ← get .sourceKey
    let keysIn : Option String ← get .keysIn
    return { kind, target, targetStorage, targetKey, sourceKey, keysIn }

/-- An association. -/
def readAssociation : Tree → Except ReadError Association.Spec :=
  associationRecord.ofTree (mismatch associationRecord.title)

/-! ## Definitions -/

/-- The fields of a definition. -/
inductive DefinitionField where
  | model
  | storageType
  | attributes
  | associations
  | indices
  deriving DecidableEq

namespace DefinitionField

/-- The name of a field. -/
def name : DefinitionField → String
  | model => "model"
  | storageType => "storageType"
  | attributes => "attributes"
  | associations => "associations"
  | indices => "indices"

/-- The type of a field. -/
def Value : DefinitionField → Type
  | model => String
  | storageType => Storage
  | attributes => Attributes
  | associations => Dict Association.Spec
  | indices => List String

/-- The reader of a field. -/
def read : (f : DefinitionField) → Tree → Except ReadError f.Value
  | model => readText
  | storageType => readStorage
  | attributes => readDict readText
  | associations => readDict readAssociation
  | indices => readTexts

/-- Associations and indices may be absent. -/
def fallback : (f : DefinitionField) → Option f.Value
  | model | storageType | attributes => none
  | associations => some (Dict.empty : Dict Association.Spec)
  | indices => some ([] : List String)

end DefinitionField

/-- Definitions as records. -/
def definitionRecord : Record Fault Definition where
  title := "struct EntityDefinition"
  Field := DefinitionField
  decEq := inferInstance
  fields := [.model, .storageType, .attributes, .associations, .indices]
  name := DefinitionField.name
  Value := DefinitionField.Value
  read := DefinitionField.read
  fallback := DefinitionField.fallback
  assemble get := do
    let name : String ← get .model
    let storage : Storage ← get .storageType
    let attributes : Attributes ← get .attributes
    let associations : Dict Association.Spec ← get .associations
    let indices : List String ← get .indices
    return { name, storage, attributes, associations, indices }

/-- The definition that a text holds, whatever its names. Nothing may follow it. -/
def ofText (text : String) : Except ReadError Definition := do
  let (t, rest) := Tree.read (tokens text)
  let d ← definitionRecord.ofTree (mismatch definitionRecord.title) t
  if rest.isEmpty then return d else throw .notJson

/-! ## Names -/

/-- The first association without a name or a target. -/
def associationFault : List (String × Association.Spec) → Option Fault
  | [] => none
  | (name, s) :: rest =>
    if name.isEmpty then some .emptyAssociation
    else if s.target.isEmpty then some (.emptyTarget name)
    else associationFault rest

/-- What is wrong with the names of a definition. -/
def nameFault (d : Definition) : Option Fault :=
  if Text.isBlankText d.name then some .blankModel
  else if d.attributes.keys.any String.isEmpty then some .emptyAttribute
  else associationFault d.associations.entries

/-- The definition that a text holds, if generated code can use its names. -/
def parse (text : String) : Except ReadError Definition := do
  let d ← ofText text
  match d.nameFault with
  | some fault => throw (.content fault)
  | none => return d

end Scaffold.Definition
