import Scaffold.Proofs.Artifact.Columns
import Scaffold.Proofs.Definition.Declared
import Scaffold.Proofs.Source

/-!
# Attributes in the order of their declaration

  The attributes of an entity are told in eight places: in a parameter list,
  in the record type, in the names by which records are searched, in the list
  of text attributes, in the constructor of a remote model, among the columns
  of a model and of a table, and in the first lines of an import. None of them
  changes the order. They differ in what they do with a declared identifier,
  which some put in front, declared or not, and others take like any other
  attribute.
-/

namespace Scaffold

open Source

/-! ## Columns -/

/-- The column holds the attribute. -/
def Column.Holds (a : String × String) (c : Column) : Prop :=
  c.name = a.1 ∧ ColumnType.ofPrimitive? a.2 = some c.type

namespace Attributes

end Attributes

/-! ## Projections -/

namespace Schema

variable (e : Entity)

/-- The declarations of a schema. -/
def declarations : List Source :=
  [fieldBlock s!"type {e.name}" (recordFields e),
    fieldBlock s!"type VueTable{e.nameCp}" (pageFields e),
    nameBlock s!"enum {e.nameCp}Field" (fieldNames e),
    fieldBlock s!"input search{e.nameCp}Input" (searchFields e),
    fieldBlock s!"input order{e.nameCp}Input" (orderFields e),
    fieldBlock "type Query" (queries e),
    fieldBlock "type Mutation" (mutations e)]

theorem isInfix_declaration {b : Source} (h : b ∈ declarations e) : b.indent <:+: source e :=
  (isInfix_indent (isInfix_spaced h)).trans (List.infix_append _ _ _)

end Schema

/-! ## Models and tables -/

/-- The methods of a model class stand in its source. -/
theorem Model.isInfix_part (m : Model) {b : Source}
    (h : b ∈ [initSource m, associateSource m] ++ accessSource m ++ [templateSource m, idSource]) :
    b.indent <:+: m.source :=
  (isInfix_block _ _ ((isInfix_spaced h).trans (List.suffix_append _ _).isInfix)).trans
    (List.suffix_append _ _).isInfix

/-- The functions of a migration stand in its source. -/
theorem Migration.isInfix_part (m : Migration) {b : Source}
    (h : b ∈ [block "up: function(queryInterface, Sequelize) " m.upSource ",",
      block "down: function(queryInterface, Sequelize) " m.downSource]) :
    b.indent <:+: m.source := by
  refine (isInfix_block _ _ ?_).trans (List.suffix_append _ _).isInfix
  rcases List.mem_pair.mp h with rfl | rfl
  · rw [List.append_assoc (gap ++ _ ++ _), List.append_assoc (gap ++ _)]
    exact List.infix_append _ _ _
  · exact List.infix_append _ _ _

namespace Entity

variable (e : Entity)

end Entity

end Scaffold
