import Scaffold.Failure
import Scaffold.Proofs.Dict
import Scaffold.Proofs.Except
import Scaffold.Proofs.Json.Document
import Scaffold.Proofs.Json.Records

/-!
# Definitions survive being written

  The text of a definition is read as the tree of the definition; so each
  reader has to give back the part of the definition whose tree it is given.
  For texts and storages this is plain, a dictionary is written anew in the
  order of its entries, and a record finds its fields listed; the keys of an
  association that are left out have nothing but their fallbacks. Names are
  checked in the definition itself and not in the text.
-/

namespace Scaffold.Definition

open Json

/-! ## Single values -/

theorem readText_ofText (s : String) : readText (.text (Piece.ofText s)) = .ok s := by
  rw [readText, Piece.decode_ofText]
  exact congrArg Except.ok s.ofList_toList

theorem readOptional_ofText (s : String) :
    readOptional (.text (Piece.ofText s)) = .ok (some s) := by
  rw [readOptional, readText_ofText]
  · rfl
  · nofun

theorem readStorage_name (s : Storage) : readStorage (.text (Piece.ofText s.name)) = .ok s := by
  rw [readStorage, readText_ofText]
  cases s with
  | sql => rfl
  | webservice => rfl

/-! ## Dictionaries and lists -/

section Dictionaries

variable {α : Type} (read : Tree → Except ReadError α)

/-- Write one member of an object into a dictionary. -/
def putMember (d : Dict α) (m : List Piece × Tree) : Except ReadError (Dict α) :=
  match Piece.decode m.1 with
  | none => .error .notJson
  | some k => do return d.insert (String.ofList k) (← read m.2)

theorem readDict_object_eq (ms : List (List Piece × Tree)) :
    readDict read (.object ms true) = ms.foldlM (putMember read) Dict.empty := by
  rw [← bind_pure (ms.foldlM (putMember read) Dict.empty)]
  rfl

variable {read}

theorem putMember_eq_ok {key : List Piece} {k : String} {t : Tree} {v : α}
    (hkey : Piece.decode key = some k.toList) (hread : read t = .ok v) (d : Dict α) :
    putMember read d (key, t) = .ok (d.insert k v) := by
  simp only [putMember, hkey, hread, String.ofList_toList]
  rfl

variable {β : Type} {es : List β} {key : β → String} {tree : β → Tree} {value : β → α}

/-- Members with these keys and values are written into the dictionary in turn. -/
theorem foldlM_putMember (h : ∀ e ∈ es, read (tree e) = .ok (value e)) (d : Dict α) :
    (es.map fun e => (Piece.ofText (key e), tree e)).foldlM (putMember read) d =
      .ok (d.insertAll (es.map fun e => (key e, value e))) := by
  induction es generalizing d with
  | nil => rfl
  | cons e es ih =>
      have hput := putMember_eq_ok (Piece.decode_ofText (key e)) (h e List.mem_cons_self) d
      rw [List.map_cons, List.foldlM_cons, hput]
      exact ih (fun e' he => h e' (List.mem_cons_of_mem e he)) _

/-- An object with these keys and values is read as the dictionary they are written into in turn. -/
theorem readDict_map (h : ∀ e ∈ es, read (tree e) = .ok (value e)) :
    readDict read (.object (es.map fun e => (Piece.ofText (key e), tree e)) true) =
      .ok (Dict.ofList (es.map fun e => (key e, value e))) := by
  rw [readDict_object_eq]
  exact foldlM_putMember h Dict.empty

end Dictionaries

/-- A dictionary is read from the object of its entries. -/
theorem readDict_entries {α : Type} {read : Tree → Except ReadError α} {tree : α → Tree}
    (h : ∀ v, read (tree v) = .ok v) (d : Dict α) :
    readDict read (.object (d.entries.map fun e => (Piece.ofText e.1, tree e.2)) true) =
      .ok d := by
  rw [readDict_map fun e _ => h e.2, List.map_id', Dict.ofList_entries]

theorem readTexts_array (ss : List String) :
    readTexts (.array (ss.map fun s => .text (Piece.ofText s)) true) = .ok ss := by
  have hread : (readText ∘ fun s => Tree.text (Piece.ofText s)) = pure := funext readText_ofText
  have h : (ss.map fun s => Tree.text (Piece.ofText s)).mapM readText = .ok ss := by
    rw [List.mapM_map, hread]
    exact (List.mapM_pure (f := id)).trans (congrArg pure ss.map_id)
  rw [readTexts, h]
  rfl

/-! ## Associations -/

namespace AssociationField

variable (s : Association.Spec)

/-- The value of a field in an association. -/
def valueIn : (f : AssociationField) → f.Value
  | type => s.kind
  | target => s.target
  | targetStorageType => s.targetStorage
  | targetKey => s.targetKey
  | sourceKey => s.sourceKey
  | keysIn => s.keysIn

/-- The field is written. -/
def isGiven : AssociationField → Bool
  | type | target | targetStorageType => true
  | targetKey => s.targetKey.isSome
  | sourceKey => s.sourceKey.isSome
  | keysIn => s.keysIn.isSome

/-- The text that is written for a field. -/
def textIn : AssociationField → String
  | type => s.kind
  | target => s.target
  | targetStorageType => s.targetStorage.name
  | targetKey => s.targetKey.getD ""
  | sourceKey => s.sourceKey.getD ""
  | keysIn => s.keysIn.getD ""

theorem field?_name (f : AssociationField) : associationRecord.field? f.name = some f := by
  cases f <;> rfl

theorem nodup_fields : associationRecord.fields.Nodup :=
  List.nodup_iff_pairwise_ne.mpr (by simp [associationRecord])

/-- A field that is written is read as its value. -/
theorem read_textIn {f : AssociationField} (h : f.isGiven s = true) :
    f.read (.text (Piece.ofText (f.textIn s))) = .ok (f.valueIn s) := by
  have optional : ∀ o : Option String, o.isSome = true →
      readOptional (.text (Piece.ofText (o.getD ""))) = .ok o := by
    intro o ho
    obtain ⟨k, rfl⟩ := Option.isSome_iff_exists.mp ho
    exact readOptional_ofText k
  cases f with
  | type | target => exact readText_ofText _
  | targetStorageType => exact readStorage_name s.targetStorage
  | targetKey | sourceKey | keysIn => exact optional _ h

/-- A field that is left out falls back to its value. -/
theorem fallback_of_not_isGiven {f : AssociationField} (h : f.isGiven s = false) :
    f.fallback = some (f.valueIn s) := by
  have absent : ∀ o : Option String, o.isSome = false → some (none : Option String) = some o := by
    intro o ho
    rw [Option.isNone_iff_eq_none.mp (Option.isSome_eq_false_iff.mp ho)]
  cases f with
  | type | target | targetStorageType => exact Bool.noConfusion h
  | targetKey | sourceKey | keysIn => exact absent _ h

end AssociationField

/-- The tree of an association lists the fields that are given. -/
theorem tree_association (s : Association.Spec) :
    s.value.tree = .object ((associationRecord.fields.filter (AssociationField.isGiven s)).map
      fun f => (Piece.ofText f.name, .text (Piece.ofText (f.textIn s)))) true := by
  -- each of the three keys is there or not
  obtain ⟨_, _, _, targetKey, sourceKey, keysIn⟩ := s
  cases targetKey <;> cases sourceKey <;> cases keysIn <;> rfl

theorem readAssociation_tree (s : Association.Spec) : readAssociation s.value.tree = .ok s := by
  let given := associationRecord.fields.filter (AssociationField.isGiven s)
  have hmem : ∀ f : AssociationField, f ∈ given ↔ f.isGiven s = true := by
    intro f
    have hf := Record.mem_fields (r := associationRecord) AssociationField.field?_name f
    exact List.mem_filter.trans (and_iff_right hf)
  have hlists := Record.Lists.map (r := associationRecord)
    (fun f => .text (Piece.ofText (AssociationField.textIn s f))) given
  have hread : ∀ f ∈ given, associationRecord.read f (.text (Piece.ofText (f.textIn s))) =
      .ok (AssociationField.valueIn s f) :=
    fun f hf => AssociationField.read_textIn s ((hmem f).mp hf)
  have hrest : ∀ f ∉ given, associationRecord.fallback f = some (AssociationField.valueIn s f) :=
    fun f hf => AssociationField.fallback_of_not_isGiven s
      (Bool.eq_false_iff.mpr fun h => hf ((hmem f).mpr h))
  have hobject := hlists.ofTree_object AssociationField.field?_name
    (AssociationField.nodup_fields.filter _) hread hrest (mismatch associationRecord.title)
  rw [tree_association]
  exact hobject

/-! ## Definitions -/

namespace DefinitionField

variable (d : Definition)

/-- The value of a field in a definition. -/
def valueIn : (f : DefinitionField) → f.Value
  | model => d.name
  | storageType => d.storage
  | attributes => d.attributes
  | associations => d.associations
  | indices => d.indices

/-- The tree that is written for a field. -/
def treeIn : DefinitionField → Tree
  | model => .text (Piece.ofText d.name)
  | storageType => .text (Piece.ofText d.storage.name)
  | attributes => .object
      (d.attributes.entries.map fun e => (Piece.ofText e.1, .text (Piece.ofText e.2))) true
  | associations => .object
      (d.associations.entries.map fun e => (Piece.ofText e.1, e.2.value.tree)) true
  | indices => .array (d.indices.map fun s => .text (Piece.ofText s)) true

theorem field?_name (f : DefinitionField) : definitionRecord.field? f.name = some f := by
  cases f <;> rfl

theorem nodup_fields : definitionRecord.fields.Nodup :=
  List.nodup_iff_pairwise_ne.mpr (by simp [definitionRecord])

/-- Every field is read as its value. -/
theorem read_treeIn (f : DefinitionField) : f.read (f.treeIn d) = .ok (f.valueIn d) := by
  cases f with
  | model => exact readText_ofText d.name
  | storageType => exact readStorage_name d.storage
  | attributes => exact readDict_entries readText_ofText d.attributes
  | associations => exact readDict_entries readAssociation_tree d.associations
  | indices => exact readTexts_array d.indices

end DefinitionField

/-- The tree of a definition lists all fields. -/
theorem tree_definition (d : Definition) :
    d.value.tree = .object
      (definitionRecord.fields.map fun f => (Piece.ofText (definitionRecord.name f),
        DefinitionField.treeIn d f)) true := by
  simp only [Definition.value, Value.tree, Value.memberTrees, Value.memberTrees_eq_map,
    Value.itemTrees_eq_map, List.map_map]
  rfl

/-- A text holds a definition if that is read from the tree of its tokens and nothing follows. -/
theorem ofText_eq_ok_iff {text : String} {d : Definition} :
    ofText text = .ok d ↔
      definitionRecord.ofTree (mismatch definitionRecord.title) (Tree.read (tokens text)).1 =
        .ok d ∧ (Tree.read (tokens text)).2 = [] := by
  rw [ofText]
  generalize Tree.read (tokens text) = p
  obtain ⟨t, rest⟩ := p
  rw [bind_eq_ok_iff]
  constructor
  · rintro ⟨d', htree, hrest⟩
    cases rest with
    | nil => exact ⟨htree.trans hrest, rfl⟩
    | cons u rest => exact nomatch hrest
  · rintro ⟨htree, rfl⟩
    exact ⟨d, htree, rfl⟩

/-- The text of a definition holds the definition, whatever its names. -/
theorem ofText_compact (d : Definition) : ofText d.value.compact = .ok d := by
  have hlists := Record.Lists.map (r := definitionRecord) (DefinitionField.treeIn d)
    definitionRecord.fields
  have hread : ∀ f ∈ definitionRecord.fields, definitionRecord.read f (DefinitionField.treeIn d f) =
      .ok (DefinitionField.valueIn d f) := fun f _ => DefinitionField.read_treeIn d f
  have hrest : ∀ f ∉ definitionRecord.fields,
      definitionRecord.fallback f = some (DefinitionField.valueIn d f) :=
    fun f hf =>
      absurd (Record.mem_fields (r := definitionRecord) DefinitionField.field?_name f) hf
  have hobject := hlists.ofTree_object DefinitionField.field?_name DefinitionField.nodup_fields
    hread hrest (mismatch definitionRecord.title)
  rw [ofText, Value.read_compact, tree_definition]
  show (definitionRecord.ofTree _ (.object _ true) >>= fun d => _) = _
  rw [hobject]
  rfl

/-! ## Names -/

/-- A text holds a definition with names that can be used if it holds the definition and nothing
    is wrong with its names. -/
theorem parse_eq_ok_iff {text : String} {d : Definition} :
    parse text = .ok d ↔ ofText text = .ok d ∧ d.nameFault = none := by
  rw [parse, bind_eq_ok_iff]
  constructor
  · rintro ⟨d', htext, hname⟩
    cases h : d'.nameFault with
    | none =>
        rw [h] at hname
        cases hname
        exact ⟨htext, h⟩
    | some fault =>
        rw [h] at hname
        exact (nomatch hname)
  · rintro ⟨htext, hname⟩
    refine ⟨d, htext, ?_⟩
    rw [hname]
    rfl

theorem parseFrom_eq_ok_iff {origin text : String} {d : Definition} :
    parseFrom origin text = .ok d ↔ parse text = .ok d :=
  mapError_eq_ok_iff

/-- **Definitions survive being written.** The compact text of a definition is read as that very
    definition, with the order of its attributes, associations and indices, exactly if nothing is
    wrong with its names. So whatever is read from some text comes back when it is written and read
    again. -/
theorem parseFrom_compact (origin : String) :
    (∀ d : Definition, parseFrom origin d.value.compact = .ok d ↔ d.nameFault = none) ∧
      ∀ source text d, parseFrom source text = .ok d →
        parseFrom origin d.value.compact = .ok d := by
  have written : ∀ d : Definition,
      parseFrom origin d.value.compact = .ok d ↔ d.nameFault = none := by
    intro d
    rw [parseFrom_eq_ok_iff, parse_eq_ok_iff]
    exact and_iff_right (ofText_compact d)
  refine ⟨written, fun source text d h => ?_⟩
  exact (written d).mpr (parse_eq_ok_iff.mp (parseFrom_eq_ok_iff.mp h)).2

/-- A definition with characters that have to be escaped, and with keys given and left out. -/
def oddSample : Definition where
  name := "a \"b\" \\ c\x01"
  storage := .sql
  attributes := .ofList [("é\n", "\t"), ("😀", "")]
  associations := .ofList [("to\x1fone", ⟨"?", "x/y", .webservice, some "", none, some "\x7f"⟩),
    ("z", ⟨"", "\x08", .sql, none, some "\r\x0c", none⟩)]
  indices := ["", "é\n", ""]

theorem parseFrom_compact_odd :
    parseFrom "odd.json" oddSample.value.compact = .ok oddSample ∧
      ∃ d, parseFrom "a.json" "[\"b\", \"SQL\", \x7b\"c\":\"\\u0064\"\x7d]" = .ok d ∧
        parseFrom "b.json" d.value.compact = .ok d :=
  ⟨((parseFrom_compact "odd.json").1 oddSample).mpr (by decide), _, by rfl,
    (parseFrom_compact "b.json").2 "a.json" "[\"b\", \"SQL\", \x7b\"c\":\"\\u0064\"\x7d]" _ (by rfl)⟩

end Scaffold.Definition
