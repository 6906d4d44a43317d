import Mathlib.Data.List.Forall2
import Scaffold.Proofs.Json.Document
import Scaffold.Proofs.Json.Records

/-!
# Spellings of records

  A record is spelled as an object, which lists fields in any order among
  members of other names, or as an array of all fields in the order of their
  declaration. Either way it is read as the record of the same values, as long
  as what is not listed falls back to its value.
-/

namespace Scaffold.Json

/-- What follows for each member from what it is paired with holds of all members. -/
theorem forall_mem_of_forall₂ {α β : Type} {R : α → β → Prop} {p : β → Prop} {as : List α}
    {bs : List β} (h : List.Forall₂ R as bs) (hp : ∀ a b, R a b → p b) : ∀ b ∈ bs, p b := by
  have hboth : List.Forall₂ (fun b a => p b ∧ R a b) bs as :=
    h.flip.imp fun b a hab => ⟨hp a b hab, hab⟩
  exact ((List.forall₂_and_left bs as).mp hboth).1

namespace Record

variable {Cause R : Type} {r : Record Cause R}

/-- The spellings of a record, for what spells a field and which fields may be left out. -/
inductive Spelled (r : Record Cause R) (spells : r.Field → Tree → Prop) (omits : r.Field → Prop) :
    Tree → Prop where
  | object {trees : r.Field → Tree} {fs : List r.Field} {ms : List (List Piece × Tree)}
      (hlists : r.Lists trees fs ms) (hfs : fs.Nodup) (hspells : ∀ f ∈ fs, spells f (trees f))
      (homits : ∀ f ∉ fs, omits f) : Spelled r spells omits (.object ms true)
  | array {items : List Tree} (hspells : List.Forall₂ spells r.fields items) :
      Spelled r spells omits (.array items true)

/-! ## Soundness -/

theorem Lists.intact {trees : r.Field → Tree} {fs : List r.Field} {ms : List (List Piece × Tree)}
    (h : r.Lists trees fs ms) (hfs : ∀ f ∈ fs, (trees f).intact = true) :
    intactMembers ms = true := by
  induction h with
  | nil => rfl
  | @field f fs key ms hkey rest ih =>
      rw [intactMembers, hfs f List.mem_cons_self, Bool.true_and]
      exact ih fun g hg => hfs g (List.mem_cons_of_mem f hg)
  | other hkey hf ht rest ih =>
      rw [intactMembers, ht, Bool.true_and]
      exact ih hfs

theorem Spelled.intact {spells : r.Field → Tree → Prop} {omits : r.Field → Prop} {t : Tree}
    (h : r.Spelled spells omits t) (hspells : ∀ f t, spells f t → t.intact = true) :
    t.intact = true := by
  cases h with
  | object hlists _ hfs _ =>
      rw [Tree.intact, hlists.intact fun f hf => hspells f _ (hfs f hf)]
      rfl
  | array hitems =>
      rw [Tree.intact, intactItems_iff.mpr (forall_mem_of_forall₂ hitems hspells)]
      rfl

/-! ## Reading -/

variable {v : (f : r.Field) → r.Value f}

/-- Items for these fields put their values into the draft and leave the rest of it. -/
theorem positional_of_forall₂ {fs : List r.Field} (hfs : fs.Nodup) {items : List Tree}
    (h : List.Forall₂ (fun f t => r.read f t = .ok (v f)) fs items) (d : r.Draft) :
    ∃ d', r.positional fs d items = .ok d' ∧ (∀ f ∈ fs, d' f = some (v f)) ∧
      ∀ f ∉ fs, d' f = d f := by
  induction h generalizing d with
  | nil => exact ⟨d, rfl, nofun, fun _ _ => rfl⟩
  | @cons f t fs items hread _ ih =>
      obtain ⟨hnot, hfs⟩ := List.nodup_cons.mp hfs
      obtain ⟨d', hrest, hin, hout⟩ := ih hfs (r.set d f (v f))
      refine ⟨d', ?_, put_behind hnot hin hout⟩
      rw [positional, hread]
      exact hrest

variable [RecordCause Cause]

/-- **However a record is spelled, it is read as itself,** if what spells a field is read as its
    value and a field that is left out falls back to it. -/
theorem Spelled.ofTree_eq {spells : r.Field → Tree → Prop} {omits : r.Field → Prop} {t : Tree}
    (h : r.Spelled spells omits t) (hname : ∀ f, r.field? (r.name f) = some f)
    (hfields : r.fields.Nodup) (hread : ∀ f t, spells f t → r.read f t = .ok (v f))
    (hrest : ∀ f, omits f → r.fallback f = some (v f)) (otherwise : Tree → ReadError Cause) :
    r.ofTree otherwise t = r.assemble fun f => .ok (v f) := by
  cases h with
  | object hlists hfs hspells homits =>
      exact hlists.ofTree_object hname hfs (fun f hf => hread f _ (hspells f hf))
        (fun f hf => hrest f (homits f hf)) otherwise
  | array hspells =>
      obtain ⟨d, hpositional, hin, -⟩ :=
        positional_of_forall₂ hfields (hspells.imp hread) r.noField
      rw [ofTree, hpositional]
      refine complete_eq (fun f => ?_) _
      rw [hin f (mem_fields hname f)]
      rfl

end Record

end Scaffold.Json
