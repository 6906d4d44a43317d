import Mathlib
import Scaffold.Proofs.Artifact.AssociationFields
import Scaffold.Proofs.Artifact.Operations

/-!
# Names that a schema declares

  A type takes no field twice, and a mutation no argument. The fields of a record
  type come from the identifier, the attributes and the associations, and the
  arguments of a mutation from the attributes and the foreign keys. Each of these
  is free of repeats in itself, so what is left are names that two of them share.
  The fields of associations take some more care: those of one association are
  never alike, and of two associations they are only in the ways that `Meets`
  lists, one of which has to do with the first letters of their names.
-/

namespace Scaffold

open Naming Source

/-! ## Fields of associations -/

namespace Association

variable (a b : Association)

/-- The fields of the record type that lead to the other side. -/
def fields : List String := a.accessNames a.name

/-- Associations of different names have a field in common: one of them leads to a single record and
    is called like a field of the other, or both lead to many, and their names differ in what
    capitalizing takes away, or are alike behind what is added to them. -/
def Meets : Prop :=
  match a.arity, b.arity with
  | .one, .one => False
  | .one, .many => a.name ∈ b.fields
  | .many, .one => b.name ∈ a.fields
  | .many, .many => a.nameCp = b.nameCp ∨ s!"{a.name}Filter" = s!"countFiltered{b.nameCp}" ∨
      s!"{b.name}Filter" = s!"countFiltered{a.nameCp}"

variable {a b}

instance : Decidable (a.Meets b) :=
  match ha : a.arity, hb : b.arity with
  | .one, .one => isFalse (by rw [Meets, ha, hb]; exact id)
  | .one, .many => decidable_of_iff (a.name ∈ b.fields) (by rw [Meets, ha, hb])
  | .many, .one => decidable_of_iff (b.name ∈ a.fields) (by rw [Meets, ha, hb])
  | .many, .many => decidable_of_iff (a.nameCp = b.nameCp ∨
      s!"{a.name}Filter" = s!"countFiltered{b.nameCp}" ∨
      s!"{b.name}Filter" = s!"countFiltered{a.nameCp}") (by rw [Meets, ha, hb])

theorem disjoint_fields_iff (h : a.name ≠ b.name) : a.fields.Disjoint b.fields ↔ ¬ a.Meets b := by
  rw [fields, fields, Meets, accessNames, accessNames]
  cases ha : a.arity with
  | one =>
      cases hb : b.arity with
      | one => simp [Ne.symm h]
      | many => simp [fields, accessNames, hb]
  | many =>
      cases hb : b.arity with
      | one => simp [fields, accessNames, ha]
      | many =>
          have hnames : toString a.name ≠ toString b.name := h
          simp only [List.disjoint_cons_right, List.disjoint_nil_right, List.mem_cons, eq_comm,
            String.append_left_inj, String.append_right_inj, List.not_mem_nil, or_false, not_or,
            and_true]
          constructor
          · rintro ⟨⟨-, hb⟩, ha, hcp⟩
            exact ⟨hcp, ha, hb⟩
          · rintro ⟨hcp, ha, hb⟩
            exact ⟨⟨hnames, hb⟩, ha, hcp⟩

/-- Capitalizing takes nothing off a name, so the longer beginning makes the longer field. -/
theorem filter_ne_countFiltered : s!"{a.name}Filter" ≠ s!"countFiltered{a.nameCp}" := by
  intro heq
  have hlength := congrArg (fun s : String => s.toList.length) heq
  have hle := length_le_capitalizeChars a.name.toList
  rw [← toList_capitalize] at hle
  have hfilter : ("Filter".toList).length = 6 := rfl
  have hcount : ("countFiltered".toList).length = 13 := rfl
  simp only [String.toList_append, List.length_append, toString, nameCp, hfilter, hcount] at hlength
  omega

theorem nodup_fields (a : Association) : a.fields.Nodup := by
  rw [fields, accessNames]
  cases a.arity with
  | one => exact List.nodup_singleton _
  | many => simpa using filter_ne_countFiltered

end Association

/-- Names in front of groups of names, all free of repeats, can only be alike across groups. -/
theorem nodup_append_flatMap_iff {α β : Type} {xs : List β} {ys : List α} {f : α → List β}
    (hxs : xs.Nodup) (hf : ∀ y ∈ ys, (f y).Nodup) :
    (xs ++ ys.flatMap f).Nodup ↔
      (∀ y ∈ ys, xs.Disjoint (f y)) ∧ ys.Pairwise fun y y' => (f y).Disjoint (f y') := by
  have hdisjoint : xs.Disjoint (ys.flatMap f) ↔ ∀ y ∈ ys, xs.Disjoint (f y) := by
    constructor
    · exact fun h y hy x hx hxy => h hx (List.mem_flatMap.mpr ⟨y, hy, hxy⟩)
    · intro h x hx hmem
      obtain ⟨y, hy, hxy⟩ := List.mem_flatMap.mp hmem
      exact h y hy hx hxy
  rw [List.nodup_append', List.nodup_flatMap, hdisjoint]
  exact ⟨fun ⟨_, ⟨_, hpairs⟩, hall⟩ => ⟨hall, hpairs⟩,
    fun ⟨hall, hpairs⟩ => ⟨hxs, ⟨hf, hpairs⟩, hall⟩⟩

/-! ## Arguments -/

/-- The names of the arguments that a mutation takes. -/
def Schema.argumentNames (e : Entity) (mutation : String) : List String :=
  ((((mutations e).find? (·.name == mutation)).bind Field.arguments).getD []).map Prod.fst

namespace Schema

theorem argumentNames_add (e : Entity) :
    argumentNames e s!"add{e.nameCp}" = e.arguments.map Prod.fst := by
  simp only [argumentNames, mutations, List.find?_cons, beq_self_eq_true]
  rfl

theorem argumentNames_update (e : Entity) :
    argumentNames e s!"update{e.nameCp}" = Attributes.identifier :: e.arguments.map Prod.fst := by
  have hadd : (s!"add{e.nameCp}" == s!"update{e.nameCp}") = false := by
    rw [beq_eq_false_iff_ne]
    simp [← String.toList_inj, toString]
  have hdelete : (s!"delete{e.nameCp}" == s!"update{e.nameCp}") = false := by
    rw [beq_eq_false_iff_ne]
    simp [← String.toList_inj, toString]
  simp only [argumentNames, mutations, List.find?_cons, hadd, hdelete, beq_self_eq_true]
  rfl

end Schema

/-! ## Definitions -/

section Accepted

variable {policy : Policy} {d : Definition} {e : Entity}

theorem Entity.attributes_of_ok (h : ofDefinition policy d = .ok e) :
    e.attributes = d.attributes := by
  obtain ⟨c, -, he⟩ := bind_eq_ok_iff.mp h
  rw [← Except.ok.inj he]

/-- The arguments of mutations are the attributes, and then the foreign keys. -/
theorem Entity.names_arguments (h : ofDefinition policy d = .ok e) :
    e.arguments.map Prod.fst = d.attributes.keys ++ e.associations.foreignKeys.keys := by
  rw [arguments, List.map_append, attributes_of_ok h]
  rfl

theorem mem_foreignKeys_iff (h : Entity.ofDefinition policy d = .ok e) (key : String) :
    key ∈ e.associations.foreignKeys.keys ↔ key ∈ Association.foreignKeysOf d.associations := by
  have hkeys : e.associations.foreignKeys =
      Classification.keysOf (Classification.known d.associations.entries) := by
    rw [Entity.associations_of_ok h]
    rfl
  rw [Dict.keys, hkeys, Classification.entries_keysOf, List.map_map]
  simp [Function.comp_def]

theorem nodup_arguments_iff (h : Entity.ofDefinition policy d = .ok e) :
    (e.arguments.map Prod.fst).Nodup ↔
      d.attributes.keys.Disjoint (Association.foreignKeysOf d.associations) := by
  rw [Entity.names_arguments h, List.nodup_append', and_iff_right d.attributes.nodup_keys,
    and_iff_right e.associations.foreignKeys.nodup_keys]
  exact forall_congr' fun key => imp_congr_right fun _ =>
    not_congr (mem_foreignKeys_iff h key)

theorem identifier_mem_arguments_iff (h : Entity.ofDefinition policy d = .ok e)
    (hid : Attributes.identifier ∉ d.attributes.keys) :
    Attributes.identifier ∈ e.arguments.map Prod.fst ↔
      Attributes.identifier ∈ Association.foreignKeysOf d.associations := by
  rw [Entity.names_arguments h, List.mem_append, or_iff_right hid, mem_foreignKeys_iff h]

/-- Fields of different associations are apart if these do not meet. -/
theorem pairwise_disjoint_fields_iff (specs : Dict Association.Spec) :
    ((Classification.known specs.entries).Pairwise fun a b => a.fields.Disjoint b.fields) ↔
      (Classification.known specs.entries).Pairwise fun a b => ¬ a.Meets b := by
  have hnames := List.pairwise_map.mp (Classification.nodup_names_known specs)
  constructor
  · intro hdisjoint
    exact (hdisjoint.and hnames).imp fun ⟨hfields, hne⟩ =>
      (Association.disjoint_fields_iff hne).mp hfields
  · intro hmeets
    exact (hmeets.and hnames).imp fun ⟨hnot, hne⟩ =>
      (Association.disjoint_fields_iff hne).mpr hnot

theorem nodup_recordFields_iff (h : Entity.ofDefinition policy d = .ok e)
    (hid : Attributes.identifier ∉ d.attributes.keys) :
    ((Schema.recordFields e).map Schema.Field.name).Nodup ↔
      (∀ a ∈ Classification.known d.associations.entries,
        (Attributes.identifier :: d.attributes.keys).Disjoint a.fields) ∧
      (Classification.known d.associations.entries).Pairwise fun a b => ¬ a.Meets b := by
  have hnames : (Schema.recordFields e).map Schema.Field.name =
      (Attributes.identifier :: d.attributes.keys) ++
        (Schema.associationFields e).map Schema.Field.name := by
    rw [Schema.recordFields, List.map_append, List.map_cons, Schema.attributeFields, List.map_map,
      Entity.attributes_of_ok h]
    rfl
  have hplain : (Attributes.identifier :: d.attributes.keys).Nodup :=
    List.nodup_cons.mpr ⟨hid, d.attributes.nodup_keys⟩
  have hfields : ∀ a ∈ Classification.known d.associations.entries, a.fields.Nodup :=
    fun a _ => a.nodup_fields
  rw [hnames, ((fieldNames_perm h).append_left _).nodup_iff,
    ← pairwise_disjoint_fields_iff d.associations]
  exact nodup_append_flatMap_iff hplain hfields

/-- **A schema declares its names once** exactly if the names that its definition shares out are
    apart. The mutation that adds a record takes no argument twice exactly if no foreign key is
    called like an attribute. Where the identifier is not declared as an attribute, the mutation
    that changes a record takes none twice exactly if moreover no foreign key is called like the
    identifier; and the record type has no field twice exactly if no field of an association is
    called like the identifier or an attribute, and no two associations meet. -/
theorem schema_names_distinct_iff (h : Entity.ofDefinition policy d = .ok e) :
    (∃ text, Template.schema.render (.entity e) = .ok text ∧ text = (Schema.source e).text 2 ∧
      (Schema.fieldBlock s!"type {e.name}" (Schema.recordFields e)).indent <:+: Schema.source e ∧
      (Schema.fieldBlock "type Mutation" (Schema.mutations e)).indent <:+: Schema.source e) ∧
    ((Schema.argumentNames e s!"add{e.nameCp}").Nodup ↔
      d.attributes.keys.Disjoint (Association.foreignKeysOf d.associations)) ∧
    (Attributes.identifier ∉ d.attributes.keys →
      ((Schema.argumentNames e s!"update{e.nameCp}").Nodup ↔
        Attributes.identifier ∉ Association.foreignKeysOf d.associations ∧
          d.attributes.keys.Disjoint (Association.foreignKeysOf d.associations)) ∧
      (((Schema.recordFields e).map Schema.Field.name).Nodup ↔
        (∀ a ∈ Classification.known d.associations.entries,
          (Attributes.identifier :: d.attributes.keys).Disjoint a.fields) ∧
        (Classification.known d.associations.entries).Pairwise fun a b => ¬ a.Meets b)) := by
  have hmutations : Schema.fieldBlock "type Mutation" (Schema.mutations e) ∈
      Schema.declarations e := by
    simp [Schema.declarations]
  refine ⟨⟨_, rfl, rfl, Schema.isInfix_declaration e List.mem_cons_self,
    Schema.isInfix_declaration e hmutations⟩, ?_, fun hid => ⟨?_, nodup_recordFields_iff h hid⟩⟩
  · rw [Schema.argumentNames_add]
    exact nodup_arguments_iff h
  · rw [Schema.argumentNames_update, List.nodup_cons, identifier_mem_arguments_iff h hid,
      nodup_arguments_iff h]

end Accepted

/-- A book with a publisher and reviews has every name once. -/
theorem schema_names_distinct_iff_sample :
    ∃ e, Entity.ofDefinition .reject (bookWith "publisher" "reviews") = .ok e ∧
      Attributes.identifier ∉ (bookWith "publisher" "reviews").attributes.keys ∧
      (Schema.argumentNames e s!"add{e.nameCp}").Nodup ∧
      (Schema.argumentNames e s!"update{e.nameCp}").Nodup ∧
      ((Schema.recordFields e).map Schema.Field.name).Nodup := by
  obtain ⟨e, he⟩ : ∃ e, Entity.ofDefinition .reject (bookWith "publisher" "reviews") = .ok e :=
    ⟨_, rfl⟩
  have hid : Attributes.identifier ∉ (bookWith "publisher" "reviews").attributes.keys := by
    decide +kernel
  have hkeys : ∀ key ∈ Association.foreignKeysOf (bookWith "publisher" "reviews").associations,
      key ≠ Attributes.identifier ∧ key ∉ (bookWith "publisher" "reviews").attributes.keys := by
    decide +kernel
  have hfields : ∀ a ∈ Classification.known (bookWith "publisher" "reviews").associations.entries,
      ∀ field ∈ a.fields, field ∉
        Attributes.identifier :: (bookWith "publisher" "reviews").attributes.keys := by
    decide +kernel
  have hmeets : (Classification.known
      (bookWith "publisher" "reviews").associations.entries).Pairwise fun a b => ¬ a.Meets b := by
    decide +kernel
  obtain ⟨-, hadd, hrest⟩ := schema_names_distinct_iff he
  obtain ⟨hupdate, hrecord⟩ := hrest hid
  have hapart : (bookWith "publisher" "reviews").attributes.keys.Disjoint
      (Association.foreignKeysOf (bookWith "publisher" "reviews").associations) :=
    fun key hmem hkey => (hkeys key hkey).2 hmem
  exact ⟨e, he, hid, hadd.mpr hapart,
    hupdate.mpr ⟨fun hmem => (hkeys _ hmem).1 rfl, hapart⟩,
    hrecord.mpr ⟨fun a ha name hname hfield => hfields a ha name hfield hname, hmeets⟩⟩

/-- A book with its publisher written down twice: in two attributes, and as an association that has
    their names for itself and for its key. -/
def reprint : Definition where
  name := "Book"
  storage := .sql
  attributes := .ofList [("title", "String"), ("publisher", "String"), ("publisherId", "Int")]
  associations := .ofList
    [("publisher", { kind := "sql_belongsTo", target := "Publisher", targetStorage := .sql
                     targetKey := some "publisherId" })]
  indices := []

/-- Nothing keeps attributes from being called like an association and its foreign key. -/
theorem not_always_distinct_names :
    reprint.nameFault = none ∧
    ∃ e, Entity.ofDefinition .reject reprint = .ok e ∧
      (Schema.recordFields e).map Schema.Field.name =
        ["id", "title", "publisher", "publisherId", "publisher"] ∧
      ¬ ((Schema.recordFields e).map Schema.Field.name).Nodup ∧
      Schema.argumentNames e s!"add{e.nameCp}" =
        ["title", "publisher", "publisherId", "publisherId"] ∧
      ¬ (Schema.argumentNames e s!"add{e.nameCp}").Nodup ∧
      Schema.argumentNames e s!"update{e.nameCp}" =
        ["id", "title", "publisher", "publisherId", "publisherId"] ∧
      ¬ (Schema.argumentNames e s!"update{e.nameCp}").Nodup :=
  ⟨by decide +kernel, _, rfl, by decide +kernel, by decide +kernel, by decide +kernel,
    by decide +kernel, by decide +kernel, by decide +kernel⟩

end Scaffold
