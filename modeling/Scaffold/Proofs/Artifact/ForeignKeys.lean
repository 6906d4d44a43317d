import Mathlib.Data.List.Infix
import Scaffold.Artifact.Resolvers
import Scaffold.Proofs.Artifact.DeclarationOrder
import Scaffold.Proofs.Association.Arities
import Scaffold.Proofs.Association.Refusal
import Scaffold.Run.Request

/-!
# Foreign keys across artifacts

  The key of an association is spelled by the mutations, the model, the
  migrations and the resolvers, and each of them has a way of its own to do
  without one. They agree all the same. What a belongs-to or a many-to-many
  association cannot do without is there, since it would have been refused
  otherwise, and where a key can be left out, all of them name the owner's.
-/

namespace Scaffold

open Source

/-! ## Texts -/

/-- The text is that of a source in which these lines stand in one piece. -/
def Shows (part : Source) (text : String) : Prop := ∃ s : Source, text = s.text 4 ∧ part <:+: s

/-- The migration goes up by this block and down by this line. -/
def Migration.Does (up : Source) (down text : String) : Prop :=
  Shows (block "up: function(queryInterface, Sequelize) " up ",").indent text ∧
    Shows (block "down: function(queryInterface, Sequelize) " (lines [down])).indent text

theorem Migration.does_text (m : Migration) {up : Source} {down : String} (hup : m.upSource = up)
    (hdown : m.downSource = lines [down]) : Does up down m.text := by
  rw [← hup, Does, ← hdown]
  exact ⟨⟨m.source, rfl, m.isInfix_part List.mem_cons_self⟩,
    ⟨m.source, rfl, m.isInfix_part (List.mem_cons_of_mem _ List.mem_cons_self)⟩⟩

/-- The column refers to another table. -/
def Migration.TableColumn.isReference (c : Migration.TableColumn) : Bool :=
  match c.content with
  | .reference _ => true
  | _ => false

namespace Entity

variable (e : Entity) (a : Association)

/-- The key that is given, or else the owner's own. -/
def keyOr (given : Option String) : String := given.getD s!"{e.nameLc}Id"

variable {e a}

/-! ## Models -/

section Accepted

variable {policy : Policy} {d : Definition} (h : ofDefinition policy d = .ok e)
include h

theorem classification_of_ok :
    Classification.of d.storage policy d.associations = .ok e.associations := by
  obtain ⟨c, hc, he⟩ := bind_eq_ok_iff.mp h
  cases he
  exact hc

theorem given_of_ok {g : Association.Groups}
    (hg : g ∈ [e.associations.implicit, e.associations.explicit]) (ha : a ∈ g.members) :
    (a.shape = .belongsTo → a.spec.targetKey = some a.targetKey) ∧
      (a.shape = .belongsToMany → a.spec.keysIn = some a.keysIn) := by
  have hkeys := Classification.hasKeys_of_ok (classification_of_ok h)
  constructor
  · intro hs
    obtain ⟨key, hkey⟩ := hkeys.targetKey g hg a (List.mem_filter.mpr ⟨ha, beq_iff_eq.mpr hs⟩)
    rw [Association.targetKey, hkey]
    rfl
  · intro hs
    obtain ⟨table, htable⟩ := hkeys.keysIn g hg a (List.mem_filter.mpr ⟨ha, beq_iff_eq.mpr hs⟩)
    rw [Association.keysIn, htable]
    rfl

end Accepted

/-- The migration for a join table creates it with the common columns and one for each side. -/
theorem does_joinTable (e : Entity) (a : Association) :
    Migration.Does
      (block s!"return queryInterface.createTable('{a.keysIn}', "
        ((Migration.commonColumns ++
          [Migration.sourceColumn e a, Migration.targetColumn a]).flatMap
            Migration.TableColumn.source) ");")
      s!"return queryInterface.dropTable('{a.keysIn}');" (Migration.joinTable e a).text :=
  Migration.does_text (Migration.joinTable e a) (List.append_nil _) rfl

end Entity

end Scaffold
