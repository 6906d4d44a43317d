import Scaffold.Artifact.Rendering
import Scaffold.Proofs.Except

/-!
# Columns of models and of tables

  The model of an entity and the migration of its table are made from the same
  attributes, each on its own. Both give an attribute the column type of its
  primitive, and both stop at the first primitive that has none. They differ in
  one thing: the table has an identifier of its own and leaves a declared one
  out, while the model declares it like any other attribute. So they agree
  unless an identifier is declared, and then exactly if it does not matter.
-/

namespace Scaffold

/-! ## Columns of attributes -/

namespace Column

/-- The column of an attribute, if its primitive type has one. -/
def typed? (a : String × String) : Option Column :=
  (ColumnType.ofPrimitive? a.2).map (Column.mk a.1)

/-- The first primitive type among attributes that no column has. -/
def untyped? (attributes : List (String × String)) : Option String :=
  (attributes.map Prod.snd).find? fun primitive => (ColumnType.ofPrimitive? primitive).isNone

theorem untyped?_cons (a : String × String) (attributes : List (String × String)) :
    untyped? (a :: attributes) =
      if (typed? a).isNone then some a.2 else untyped? attributes := by
  rw [untyped?, List.map_cons, List.find?_cons, typed?, Option.isNone_map]
  cases (ColumnType.ofPrimitive? a.2).isNone <;> rfl

theorem ofAttribute_eq (a : String × String) :
    ofAttribute a = match typed? a with
      | some c => .ok c
      | none => .error (.unsupportedType a.2) := by
  obtain ⟨name, primitive⟩ := a
  rw [ofAttribute, typed?]
  cases ColumnType.ofPrimitive? primitive <;> rfl

/-- Attributes have their columns, one for each, unless a primitive type has none. -/
theorem ofAttributes_eq (attributes : List (String × String)) :
    ofAttributes attributes = match untyped? attributes with
      | some primitive => .error (.unsupportedType primitive)
      | none => .ok (attributes.filterMap typed?) := by
  induction attributes with
  | nil => rfl
  | cons a attributes ih =>
      rw [ofAttributes] at ih ⊢
      rw [List.mapM_cons, ofAttribute_eq, ih, untyped?_cons, List.filterMap_cons]
      cases typed? a with
      | none => rfl
      | some c => cases untyped? attributes <;> rfl

theorem name_of_typed? {a : String × String} {c : Column}
    (h : typed? a = some c) : c.name = a.1 := by
  obtain ⟨type, -, rfl⟩ := Option.map_eq_some_iff.mp h
  rfl

/-- Without the identifier, what is left has the columns that are left. -/
theorem filterMap_others (attributes : Attributes) :
    attributes.others.filterMap typed? =
      (attributes.entries.filterMap typed?).filter (·.name != Attributes.identifier) := by
  rw [Attributes.others, List.filterMap_filter, List.filter_filterMap]
  refine List.filterMap_congr fun a _ => ?_
  cases h : typed? a with
  | none => simp
  | some c =>
      rw [Option.filter_some, name_of_typed? h]

theorem untyped?_others_of_none {attributes : Attributes}
    (h : untyped? attributes.entries = none) : untyped? attributes.others = none := by
  rw [untyped?, List.find?_eq_none] at h ⊢
  intro primitive hmem
  exact h primitive (List.filter_sublist.map Prod.snd |>.mem hmem)

end Column

/-! ## Types as they are written -/

/-- The type of a column in a new table. -/
def Migration.Content.type : Migration.Content → ColumnType
  | key => .integer
  | plain type => type
  | reference _ => .integer

/-- The text of a column begins with its type. -/
theorem Migration.Content.source_type (content : Migration.Content) :
    ∃ comma rest, content.source =
      .code 0 (s!"type: {content.type.expression}" ++ comma) :: rest := by
  cases content with
  | key => exact ⟨",", _, rfl⟩
  | plain type => exact ⟨"", _, by rw [String.append_empty]; rfl⟩
  | reference table => exact ⟨",", _, rfl⟩

theorem ColumnType.ofPrimitive?_eq_integer_iff {primitive : String} :
    ofPrimitive? primitive = some .integer ↔ primitive = "Int" := by
  constructor
  · intro h
    obtain ⟨before, after, hsplit, -⟩ := List.lookup_eq_some_iff.mp h
    have hmem : (primitive, ColumnType.integer) ∈ ofPrimitives :=
      hsplit ▸ List.mem_append_right before List.mem_cons_self
    have hall : ∀ p ∈ ofPrimitives, p.2 = .integer → p.1 = "Int" := by decide
    exact hall _ hmem rfl
  · rintro rfl
    rfl

/-! ## Model and table -/

/-- The columns of a new table. -/
def Migration.newColumns : Migration → List Migration.TableColumn
  | createTable _ columns _ => columns
  | addColumn _ _ _ => []

/-- Every column that the model declares is in the table with the same type, and every column of
    the table beyond those that all tables have is declared by the model. -/
structure ColumnsAgree (m : Model) (t : Migration) : Prop where
  declared : ∀ c ∈ m.columns, ∃ c' ∈ t.newColumns, c'.name = c.name ∧ c'.content.type = c.type
  created : ∀ c' ∈ t.newColumns.drop Migration.commonColumns.length,
    ∃ c ∈ m.columns, c' = Migration.attributeColumn c

/-- An entity has a model and a migration for its table, and their columns agree, or it has
    neither, for the same failure. -/
def Entity.TableAgrees (e : Entity) : Prop :=
  match Model.of e, Migration.table e with
  | .ok m, .ok t => ColumnsAgree m t
  | .error f, .error g => f = g
  | _, _ => False

namespace Entity

variable (e : Entity)

theorem model_eq :
    Model.of e = match Column.untyped? e.attributes.entries with
      | some primitive => .error (.unsupportedType primitive)
      | none => .ok
        { name := e.name, nameLc := e.nameLc, table := e.table
          columns := e.attributes.entries.filterMap Column.typed?
          calls := e.associations.implicit.listed.map (Model.Call.of e)
          attributes := e.attributes.entries } := by
  rw [Model.of, Column.ofAttributes_eq]
  cases Column.untyped? e.attributes.entries <;> rfl

theorem table_eq :
    Migration.table e = match Column.untyped? e.attributes.others with
      | some primitive => .error (.unsupportedType primitive)
      | none => .ok (.createTable e.table
          (Migration.commonColumns ++
            (e.attributes.others.filterMap Column.typed?).map Migration.attributeColumn)
          e.indices) := by
  rw [Migration.table, Column.ofAttributes_eq]
  cases Column.untyped? e.attributes.others <;> rfl

end Entity

theorem columnsAgree_iff {m : Model} {table : String} {indices : List String} :
    ColumnsAgree m (.createTable table (Migration.commonColumns ++
        (m.columns.filter (·.name != Attributes.identifier)).map Migration.attributeColumn)
          indices) ↔
      ∀ c ∈ m.columns, c.name = Attributes.identifier → c.type = .integer := by
  constructor
  · intro hagree c hc hid
    obtain ⟨c', hc', hname, htype⟩ := hagree.declared c hc
    rw [← htype]
    rcases List.mem_append.mp hc' with hcommon | hattribute
    · -- of the columns that all tables have, only the key is called so
      have hkey : ∀ c' ∈ Migration.commonColumns, c'.name = Attributes.identifier →
          c'.content.type = .integer := by decide
      exact hkey c' hcommon (hname.trans hid)
    · obtain ⟨b, hb, rfl⟩ := List.mem_map.mp hattribute
      have hne := (List.mem_filter.mp hb).2
      rw [bne_iff_ne] at hne
      exact absurd (hname.trans hid) hne
  · intro hinteger
    refine ⟨fun c hc => ?_, fun c' hc' => ?_⟩
    · by_cases hid : c.name = Attributes.identifier
      · refine ⟨⟨Attributes.identifier, .key⟩, List.mem_cons_self, hid.symm, ?_⟩
        exact (hinteger c hc hid).symm
      · refine ⟨Migration.attributeColumn c, List.mem_append_right _ ?_, rfl, rfl⟩
        exact List.mem_map_of_mem (List.mem_filter.mpr ⟨hc, bne_iff_ne.mpr hid⟩)
    · rw [Migration.newColumns, List.drop_left] at hc'
      obtain ⟨c, hc, rfl⟩ := List.mem_map.mp hc'
      exact ⟨c, (List.mem_filter.mp hc).1, rfl⟩

/-- A declared identifier has an integer column exactly if it is declared so. -/
theorem Column.identifier_integer_iff {attributes : List (String × String)}
    (h : untyped? attributes = none) :
    (∀ c ∈ attributes.filterMap typed?, c.name = Attributes.identifier → c.type = .integer) ↔
      ∀ primitive, (Attributes.identifier, primitive) ∈ attributes → primitive = "Int" := by
  have htyped : ∀ p ∈ attributes, ∃ type, ColumnType.ofPrimitive? p.2 = some type := by
    intro p hp
    rw [untyped?, List.find?_eq_none] at h
    have hsome := h p.2 (List.mem_map_of_mem hp)
    rw [Option.isNone_iff_eq_none] at hsome
    exact Option.ne_none_iff_exists'.mp hsome
  constructor
  · intro hinteger primitive hmem
    obtain ⟨type, htype⟩ := htyped _ hmem
    have hcolumn : (⟨Attributes.identifier, type⟩ : Column) ∈ attributes.filterMap typed? :=
      List.mem_filterMap.mpr ⟨_, hmem, by rw [typed?, htype]; rfl⟩
    rw [← ColumnType.ofPrimitive?_eq_integer_iff, htype, ← hinteger _ hcolumn rfl]
  · intro hint c hc hid
    obtain ⟨⟨name, primitive⟩, hmem, htyped?⟩ := List.mem_filterMap.mp hc
    obtain ⟨type, htype, rfl⟩ := Option.map_eq_some_iff.mp htyped?
    obtain rfl : name = Attributes.identifier := hid
    have hprimitive := ColumnType.ofPrimitive?_eq_integer_iff.mpr (hint primitive hmem)
    exact Option.some.inj (htype.symm.trans hprimitive)

/-- The identifier matters only if it changes the failure or has a type of its own. -/
theorem Entity.tableAgrees_iff (e : Entity) :
    e.TableAgrees ↔
      Column.untyped? e.attributes.others = Column.untyped? e.attributes.entries ∧
        (Column.untyped? e.attributes.entries = none →
          ∀ primitive, (Attributes.identifier, primitive) ∈ e.attributes.entries →
            primitive = "Int") := by
  rw [TableAgrees, model_eq, table_eq]
  cases hall : Column.untyped? e.attributes.entries with
  | none =>
      rw [Column.untyped?_others_of_none hall, Column.filterMap_others]
      rw [and_iff_right rfl, imp_iff_right rfl, ← Column.identifier_integer_iff hall]
      exact columnsAgree_iff
  | some primitive =>
      cases hothers : Column.untyped? e.attributes.others with
      | none =>
          constructor
          · exact nofun
          · rintro ⟨h, -⟩
            exact nomatch h
      | some primitive' =>
          constructor
          · intro h
            refine ⟨congrArg some ?_, nofun⟩
            exact (Failure.unsupportedType.inj h).symm
          · rintro ⟨h, -⟩
            exact congrArg Failure.unsupportedType (Option.some.inj h).symm

/-- **Columns agree** but for the identifier. Model and migration both fail for the first primitive
    type that no column has, the migration without regard to a declared identifier. The table of
    an entity with a model has the model's columns other than the identifier, in their order and
    with their types, behind those that all tables have. So both agree exactly if a declared
    identifier does not change the failure and, where there is none, is of the type `Int`. -/
theorem columns_agree_iff (e : Entity) :
    (∀ f, Template.model.render (.entity e) = .error f ↔
      ∃ primitive, Column.untyped? e.attributes.entries = some primitive ∧
        f = .unsupportedType primitive) ∧
    (∀ f, Template.migration.render (.entity e) = .error f ↔
      ∃ primitive, Column.untyped? e.attributes.others = some primitive ∧
        f = .unsupportedType primitive) ∧
    (∀ m, Model.of e = .ok m →
      Migration.table e = .ok (.createTable m.table
        (Migration.commonColumns ++
          (m.columns.filter (·.name != Attributes.identifier)).map Migration.attributeColumn)
        e.indices)) ∧
    (e.TableAgrees ↔
      Column.untyped? e.attributes.others = Column.untyped? e.attributes.entries ∧
        (Column.untyped? e.attributes.entries = none →
          ∀ primitive, (Attributes.identifier, primitive) ∈ e.attributes.entries →
            primitive = "Int")) := by
  refine ⟨fun f => ?_, fun f => ?_, fun m hm => ?_, e.tableAgrees_iff⟩
  · rw [Template.render, e.model_eq]
    cases Column.untyped? e.attributes.entries with
    | none => simp [Except.map]
    | some primitive => simp [Except.map, eq_comm]
  · rw [Template.render, e.table_eq]
    cases Column.untyped? e.attributes.others with
    | none => simp [Except.map]
    | some primitive => simp [Except.map, eq_comm]
  · rw [e.model_eq] at hm
    cases hall : Column.untyped? e.attributes.entries with
    | none =>
        rw [hall] at hm
        cases hm
        rw [e.table_eq, Column.untyped?_others_of_none hall, Column.filterMap_others]
    | some primitive =>
        rw [hall] at hm
        exact nomatch hm

/-- A table with an identifier of a declared type. -/
def taggedWith (primitive : String) : Definition where
  name := "Tag"
  storage := .sql
  attributes := .ofList [("id", primitive), ("label", "String")]
  associations := .ofList []
  indices := []

/-- An identifier that is declared as the integer it is makes no difference. -/
theorem columns_agree_iff_sample :
    ∃ e, Entity.ofDefinition .reject (taggedWith "Int") = .ok e ∧
      e.attributes.entries = [("id", "Int"), ("label", "String")] ∧ e.TableAgrees := by
  refine ⟨_, rfl, rfl, (columns_agree_iff _).2.2.2.mpr ⟨rfl, fun _ => ?_⟩⟩
  intro primitive hmem
  have hentry : ("id", primitive) ∈ [("id", "Int"), ("label", "String")] := hmem
  simpa using hentry

/-- A declared text identifier is a text in the model and an integer in the table. If its type is
    none of a column, the entity gets its table and no model. -/
theorem identifier_apart :
    (taggedWith "String").nameFault = none ∧ (taggedWith "Uuid").nameFault = none ∧
    (∃ e, Entity.ofDefinition .reject (taggedWith "String") = .ok e ∧ ¬ e.TableAgrees) ∧
    ∃ e text, Entity.ofDefinition .reject (taggedWith "Uuid") = .ok e ∧
      Template.migration.render (.entity e) = .ok text ∧
      Template.model.render (.entity e) = .error (.unsupportedType "Uuid") := by
  refine ⟨by decide +kernel, by decide +kernel, ⟨_, rfl, fun hagrees => ?_⟩, _, _, rfl, rfl, rfl⟩
  have hint := (Entity.tableAgrees_iff _).mp hagrees |>.2 rfl "String" List.mem_cons_self
  exact absurd hint (by decide)

end Scaffold
