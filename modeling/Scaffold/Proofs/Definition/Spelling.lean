import Scaffold.Proofs.Definition.RoundTrip
import Scaffold.Proofs.Json.RecordSpelling
import Scaffold.Proofs.Json.Spelling
import Scaffold.Proofs.Json.Written
import Scaffold.Proofs.Naming.Segment

/-!
# Definitions in any spelling

  A definition can be spelled in many ways: its fields and those of its
  associations may come in any order among members of other names, or without
  their names in the order of their declaration, storages may be written in any
  letter case, and keys that are not given may be left out or be null. Each part
  of a definition is read as itself from every spelling that it has, so all
  texts of a definition are read as the same definition. Only the order inside
  dictionaries and lists belongs to the definition and not to its spelling.
-/

namespace Scaffold.Definition

open Json

/-! ## Single values -/

/-- The tree is that text, whichever of its characters are escaped. -/
def TextSpelled (s : String) (t : Tree) : Prop :=
  ∃ ps, t = .text ps ∧ Piece.decode ps = some s.toList

/-- The tree is that text, or null in its absence. -/
def OptionalSpelled : Option String → Tree → Prop
  | none, t => t = .null
  | some s, t => TextSpelled s t

/-- The tree is the name of the storage in any mix of letter case. -/
def StorageSpelled (s : Storage) (t : Tree) : Prop :=
  ∃ name : String, TextSpelled name t ∧ name.toList.map Char.toLower = s.name.toList

theorem TextSpelled.read {s : String} {t : Tree} (h : TextSpelled s t) : readText t = .ok s := by
  obtain ⟨ps, rfl, hps⟩ := h
  rw [readText, hps]
  exact congrArg Except.ok s.ofList_toList

theorem TextSpelled.intact {s : String} {t : Tree} (h : TextSpelled s t) : t.intact = true := by
  obtain ⟨ps, rfl, -⟩ := h
  rfl

theorem OptionalSpelled.read {o : Option String} {t : Tree} (h : OptionalSpelled o t) :
    readOptional t = .ok o := by
  cases o with
  | none =>
      rw [show t = .null from h]
      rfl
  | some s =>
      obtain ⟨ps, rfl, hps⟩ := h
      have hread := TextSpelled.read ⟨ps, rfl, hps⟩
      rw [readOptional, hread]
      · rfl
      · intro h
        cases h

theorem OptionalSpelled.intact {o : Option String} {t : Tree} (h : OptionalSpelled o t) :
    t.intact = true := by
  cases o with
  | none =>
      rw [show t = .null from h]
      rfl
  | some s => exact TextSpelled.intact h

/-- Only characters of ASCII have a lower case that comes up in the name of a storage. -/
theorem lower_of_map_toLower {name : String} {s : Storage}
    (h : name.toList.map Char.toLower = s.name.toList) : Text.lower name = s.name := by
  have hstorage : s.name.toList.all Text.isAscii = true := by
    cases s <;> rfl
  have hascii : ∀ c ∈ name.toList, Text.isAscii c = true := by
    intro c hc
    by_contra hbeyond
    have hmem : c.toLower ∈ s.name.toList := h ▸ List.mem_map_of_mem hc
    rw [Text.toLower_of_not_isAscii (Bool.eq_false_of_not_eq_true hbeyond)] at hmem
    exact hbeyond (List.all_eq_true.mp hstorage c hmem)
  rw [Text.lower, Text.lowerChars, Naming.lowerFrom_ascii hascii, h, String.ofList_toList]

theorem StorageSpelled.read {s : Storage} {t : Tree} (h : StorageSpelled s t) :
    readStorage t = .ok s := by
  obtain ⟨name, htext, hname⟩ := h
  have hs : Storage.ofName name = .ok s := by
    rw [Storage.ofName, lower_of_map_toLower hname]
    cases s <;> rfl
  refine bind_eq_ok_iff.mpr ⟨name, htext.read, ?_⟩
  rw [hs]

theorem StorageSpelled.intact {s : Storage} {t : Tree} (h : StorageSpelled s t) :
    t.intact = true := by
  obtain ⟨name, htext, -⟩ := h
  exact htext.intact

/-! ## Dictionaries and lists -/

/-- The tree is an object of these entries in their order. -/
def DictSpelled {α : Type} (spells : α → Tree → Prop) (d : Dict α) (t : Tree) : Prop :=
  ∃ ms, t = .object ms true ∧ List.Forall₂
    (fun e m => Piece.decode m.1 = some e.1.toList ∧ spells e.2 m.2) d.entries ms

/-- The tree is an array of these texts in their order. -/
def TextsSpelled (ss : List String) (t : Tree) : Prop :=
  ∃ ts, t = .array ts true ∧ List.Forall₂ TextSpelled ss ts

theorem DictSpelled.read {α : Type} {spells : α → Tree → Prop} {d : Dict α} {t : Tree}
    (h : DictSpelled spells d t) {read : Tree → Except ReadError α}
    (hread : ∀ v t, spells v t → read t = .ok v) : readDict read t = .ok d := by
  obtain ⟨ms, rfl, hms⟩ := h
  have hfold : ∀ {es : List (String × α)} {ms : List (List Piece × Tree)},
      List.Forall₂ (fun e m => Piece.decode m.1 = some e.1.toList ∧ spells e.2 m.2) es ms →
        ∀ d : Dict α, ms.foldlM (putMember read) d = .ok (d.insertAll es) := by
    intro es ms hms
    induction hms with
    | nil => exact fun d => rfl
    | @cons e m es ms hm _ ih =>
        intro d
        rw [List.foldlM_cons, putMember_eq_ok hm.1 (hread e.2 m.2 hm.2)]
        exact ih (d.insert e.1 e.2)
  rw [readDict_object_eq, hfold hms Dict.empty]
  exact congrArg Except.ok d.ofList_entries

theorem DictSpelled.intact {α : Type} {spells : α → Tree → Prop} {d : Dict α} {t : Tree}
    (h : DictSpelled spells d t) (hspells : ∀ v t, spells v t → t.intact = true) :
    t.intact = true := by
  obtain ⟨ms, rfl, hms⟩ := h
  have hall : ∀ m ∈ ms, m.2.intact = true :=
    forall_mem_of_forall₂ hms fun e m hm => hspells e.2 m.2 hm.2
  rw [Tree.intact, intactMembers_iff.mpr hall]
  rfl

theorem TextsSpelled.read {ss : List String} {t : Tree} (h : TextsSpelled ss t) :
    readTexts t = .ok ss := by
  obtain ⟨ts, rfl, hts⟩ := h
  have hall : ts.mapM readText = .ok ss :=
    mapM_eq_ok_iff.mpr (hts.flip.imp fun _ _ => TextSpelled.read)
  rw [readTexts, hall]
  rfl

theorem TextsSpelled.intact {ss : List String} {t : Tree} (h : TextsSpelled ss t) :
    t.intact = true := by
  obtain ⟨ts, rfl, hts⟩ := h
  have hall : ∀ t ∈ ts, t.intact = true := forall_mem_of_forall₂ hts fun _ _ => TextSpelled.intact
  rw [Tree.intact, intactItems_iff.mpr hall]
  rfl

/-! ## Associations -/

/-- What spells a field of an association. -/
def AssociationField.Spelled (s : Association.Spec) : AssociationField → Tree → Prop
  | type => TextSpelled s.kind
  | target => TextSpelled s.target
  | targetStorageType => StorageSpelled s.targetStorage
  | targetKey => OptionalSpelled s.targetKey
  | sourceKey => OptionalSpelled s.sourceKey
  | keysIn => OptionalSpelled s.keysIn

/-- The tree is the association, as an object or as an array. Keys that are not given may be left
    out of the object. -/
def AssociationSpelled (s : Association.Spec) (t : Tree) : Prop :=
  associationRecord.Spelled (AssociationField.Spelled s) (fun f => f.isGiven s = false) t

theorem AssociationField.Spelled.read {s : Association.Spec} {f : AssociationField} {t : Tree}
    (h : f.Spelled s t) : f.read t = .ok (f.valueIn s) := by
  cases f with
  | type | target => exact TextSpelled.read h
  | targetStorageType => exact StorageSpelled.read h
  | targetKey | sourceKey | keysIn => exact OptionalSpelled.read h

theorem AssociationField.Spelled.intact {s : Association.Spec} {f : AssociationField} {t : Tree}
    (h : f.Spelled s t) : t.intact = true := by
  cases f with
  | type | target => exact TextSpelled.intact h
  | targetStorageType => exact StorageSpelled.intact h
  | targetKey | sourceKey | keysIn => exact OptionalSpelled.intact h

theorem AssociationSpelled.read {s : Association.Spec} {t : Tree} (h : AssociationSpelled s t) :
    readAssociation t = .ok s := by
  have hrecord := Record.Spelled.ofTree_eq h (v := AssociationField.valueIn s)
    AssociationField.field?_name AssociationField.nodup_fields
    (fun _ _ => AssociationField.Spelled.read)
    (fun _ => AssociationField.fallback_of_not_isGiven s) (mismatch associationRecord.title)
  exact hrecord

theorem AssociationSpelled.intact {s : Association.Spec} {t : Tree}
    (h : AssociationSpelled s t) : t.intact = true :=
  Record.Spelled.intact h fun _ _ => AssociationField.Spelled.intact

/-! ## Definitions -/

/-- What spells a field of a definition. -/
def DefinitionField.Spelled (d : Definition) : DefinitionField → Tree → Prop
  | model => TextSpelled d.name
  | storageType => StorageSpelled d.storage
  | attributes => DictSpelled TextSpelled d.attributes
  | associations => DictSpelled AssociationSpelled d.associations
  | indices => TextsSpelled d.indices

/-- The field may be left out: there are no associations or no indices. -/
def DefinitionField.Omitted (d : Definition) : DefinitionField → Prop
  | associations => d.associations = Dict.empty
  | indices => d.indices = []
  | model | storageType | attributes => False

/-- The tree is the definition, as an object or as an array. -/
def Spelled (d : Definition) (t : Tree) : Prop :=
  definitionRecord.Spelled (DefinitionField.Spelled d) (DefinitionField.Omitted d) t

theorem DefinitionField.Spelled.read {d : Definition} {f : DefinitionField} {t : Tree}
    (h : f.Spelled d t) : f.read t = .ok (f.valueIn d) := by
  cases f with
  | model => exact TextSpelled.read h
  | storageType => exact StorageSpelled.read h
  | attributes => exact DictSpelled.read h fun _ _ => TextSpelled.read
  | associations => exact DictSpelled.read h fun _ _ => AssociationSpelled.read
  | indices => exact TextsSpelled.read h

theorem DefinitionField.Spelled.intact {d : Definition} {f : DefinitionField} {t : Tree}
    (h : f.Spelled d t) : t.intact = true := by
  cases f with
  | model => exact TextSpelled.intact h
  | storageType => exact StorageSpelled.intact h
  | attributes => exact DictSpelled.intact h fun _ _ => TextSpelled.intact
  | associations => exact DictSpelled.intact h fun _ _ => AssociationSpelled.intact
  | indices => exact TextsSpelled.intact h

theorem DefinitionField.Omitted.fallback {d : Definition} {f : DefinitionField}
    (h : f.Omitted d) : f.fallback = some (f.valueIn d) := by
  cases f with
  | model | storageType | attributes => exact h.elim
  | associations => exact congrArg some (Eq.symm h)
  | indices => exact congrArg some (Eq.symm h)

/-- **However a definition is spelled, it is read as itself,** exactly if nothing is wrong with its
    names. The spelling is the tree that the text holds, and the text may have any white space
    between the tokens of that tree and escape what it likes. -/
theorem parseFrom_of_spelled (origin : String) {d : Definition} {t : Tree} {text : String}
    (ht : d.Spelled t) (htext : AllSpelled t.tokens text.toList) :
    parseFrom origin text = .ok d ↔ d.nameFault = none := by
  have hintact : t.intact = true :=
    Record.Spelled.intact ht fun _ _ => DefinitionField.Spelled.intact
  have hrecord := Record.Spelled.ofTree_eq ht (v := DefinitionField.valueIn d)
    DefinitionField.field?_name DefinitionField.nodup_fields
    (fun _ _ => DefinitionField.Spelled.read)
    (fun _ => DefinitionField.Omitted.fallback) (mismatch definitionRecord.title)
  have hread : ofText text = .ok d := by
    rw [ofText_eq_ok_iff, Tree.read_of_allSpelled hintact htext]
    exact ⟨hrecord, rfl⟩
  rw [parseFrom_eq_ok_iff, parse_eq_ok_iff]
  exact and_iff_right hread

/-! ## An example -/

/-- A definition with two associations. -/
def tagSample : Definition where
  name := "Tag"
  storage := .sql
  attributes := .ofList [("label", "String")]
  associations := .ofList
    [("owner", { kind := "sql_belongsTo", target := "user", targetStorage := .webservice
                 sourceKey := some "tagId" }),
      ("peers", { kind := "sql_hasMany", target := "tag", targetStorage := .sql })]
  indices := []

/-- The first association as an array. -/
def ownerValue : Value :=
  .array [.text "sql_belongsTo", .text "user", .text "WebService", .null, .text "tagId", .null]

/-- The second association as an object with a key that is null and a member of another name. -/
def peersValue : Value :=
  .object [("targetStorageType", .text "Sql"), ("keysIn", .null), ("Target", .text "b"),
    ("target", .text "tag"), ("type", .text "sql_hasMany")]

/-- The definition with its fields the other way round, without indices and with a note. -/
def tagValue : Value :=
  .object [("note", .array [.object [("model", .null)], .array []]),
    ("associations", .object [("owner", ownerValue), ("peers", peersValue)]),
    ("attributes", .object [("label", .text "String")]), ("storageType", .text "SQL"),
    ("model", .text "Tag")]

theorem textSpelled_ofText (s : String) : TextSpelled s (.text (Piece.ofText s)) :=
  ⟨_, rfl, Piece.decode_ofText s⟩

theorem storageSpelled_ofText {s : Storage} {name : String}
    (h : name.toList.map Char.toLower = s.name.toList) :
    StorageSpelled s (.text (Piece.ofText name)) :=
  ⟨name, textSpelled_ofText name, h⟩

theorem owner_spelled :
    AssociationSpelled { kind := "sql_belongsTo", target := "user", targetStorage := .webservice
                         sourceKey := some "tagId" } ownerValue.tree :=
  .array (.cons (textSpelled_ofText _) (.cons (textSpelled_ofText _)
    (.cons (storageSpelled_ofText rfl) (.cons rfl (.cons (textSpelled_ofText _)
      (.cons rfl .nil))))))

/-- The trees of the fields of the second association. -/
def peersTrees : AssociationField → Tree
  | .type => .text (Piece.ofText "sql_hasMany")
  | .target => .text (Piece.ofText "tag")
  | .targetStorageType => .text (Piece.ofText "Sql")
  | .targetKey | .sourceKey | .keysIn => .null

/-- The fields that its object lists. -/
def peersFields : List AssociationField := [.targetStorageType, .keysIn, .target, .type]

theorem peers_spelled :
    AssociationSpelled { kind := "sql_hasMany", target := "tag", targetStorage := .sql }
      peersValue.tree := by
  have hlists : associationRecord.Lists peersTrees peersFields _ :=
    .field (Piece.decode_ofText _) (.field (Piece.decode_ofText _)
      (.other (t := .text (Piece.ofText "b")) (Piece.decode_ofText "Target") rfl rfl
        (.field (Piece.decode_ofText _) (.field (Piece.decode_ofText _) .nil))))
  have hfields : peersFields.Nodup := by decide
  refine .object hlists hfields (fun f _ => ?_) fun f (hf : f ∉ peersFields) => ?_
  · cases f with
    | type | target => exact textSpelled_ofText _
    | targetStorageType => exact storageSpelled_ofText rfl
    | targetKey | sourceKey | keysIn => rfl
  · cases f with
    | type | target | targetStorageType | keysIn => exact absurd (by decide) hf
    | targetKey | sourceKey => rfl

/-- The trees of the fields of the definition. -/
def tagTrees : DefinitionField → Tree
  | .model => .text (Piece.ofText "Tag")
  | .storageType => .text (Piece.ofText "SQL")
  | .attributes => (Value.object [("label", .text "String")]).tree
  | .associations => (Value.object [("owner", ownerValue), ("peers", peersValue)]).tree
  | .indices => .null

/-- The fields that the object lists. -/
def tagFields : List DefinitionField := [.associations, .attributes, .storageType, .model]

theorem tag_spelled : tagSample.Spelled tagValue.tree := by
  have hlists : definitionRecord.Lists tagTrees tagFields _ :=
    .other (t := (Value.array [.object [("model", .null)], .array []]).tree)
      (Piece.decode_ofText "note") rfl rfl
        (.field (Piece.decode_ofText _) (.field (Piece.decode_ofText _)
          (.field (Piece.decode_ofText _) (.field (Piece.decode_ofText _) .nil))))
  have hfields : tagFields.Nodup := by decide
  refine .object hlists hfields (fun f (hf : f ∈ tagFields) => ?_)
    fun f (hf : f ∉ tagFields) => ?_
  · cases f with
    | model => exact textSpelled_ofText _
    | storageType => exact storageSpelled_ofText rfl
    | attributes => exact ⟨_, rfl, .cons ⟨Piece.decode_ofText _, textSpelled_ofText _⟩ .nil⟩
    | associations =>
        exact ⟨_, rfl, .cons ⟨Piece.decode_ofText _, owner_spelled⟩
          (.cons ⟨Piece.decode_ofText _, peers_spelled⟩ .nil)⟩
    | indices => exact absurd hf (by decide)
  · cases f with
    | model | storageType | attributes | associations => exact absurd (by decide) hf
    | indices => rfl

theorem parseFrom_of_spelled_sample :
    tagSample.Spelled tagValue.tree ∧
      AllSpelled tagValue.tree.tokens tagValue.pretty.toList ∧
      parseFrom "tag.json" tagValue.pretty = .ok tagSample := by
  have htext : AllSpelled tagValue.tree.tokens tagValue.pretty.toList :=
    tagValue.allSpelled_prettyAt 0
  exact ⟨tag_spelled, htext, (parseFrom_of_spelled "tag.json" tag_spelled htext).mpr rfl⟩

end Scaffold.Definition
