import Scaffold.Proofs.Association.Partition
import Scaffold.Proofs.Naming.Kept
import Scaffold.Proofs.Run.CreatedOnce
import Scaffold.Proofs.Run.Names

/-!
# What models refer to

  A model refers to another by a key, which stands for the file of that name
  among the models, and its migrations refer to a table. Both are spelled from
  what the owner declares, and the file and the table from what the target's
  own definition says, if it takes part in the run at all. So a reference leads
  somewhere exactly if there is an entity of that name. The heart is that the
  plural of a name keeps its slashes: an entity in a directory of its own has
  the file name that a key asks for, but never the table.
-/

namespace Scaffold

open Stamper

/-! ## References -/

theorem Request.model_mem (settings : Settings) {es : List Entity} {e : Entity} (he : e ∈ es)
    (hrel : e.isRelational = true) :
    rendered .model (.entity e) (.fixed (settings.outputDir.site (modelsDir, e.file))) ∈
      all settings es := by
  refine rendered_mem settings he ?_
  rw [mem_plan_iff]
  rw [Entity.isRelational] at hrel
  cases hs : e.storage with
  | sql => exact Or.inr (Or.inr (Or.inl rfl))
  | webservice =>
      rw [hs] at hrel
      cases hrel

theorem Named.model_mem {settings : Settings} {ts : List Moment} {es : List Entity}
    {as : List Attempt} (h : Named settings.outputDir ts (Request.all settings es) as) {e : Entity}
    (he : e ∈ es.filter (·.isRelational)) :
    (⟨some .model, settings.outputDir.site (modelsDir, e.file),
      (Model.of e).map Model.text⟩ : Attempt) ∈ as := by
  obtain ⟨he, hrel⟩ := List.mem_filter.mp he
  exact h.at_mem_of_fixed (Request.model_mem settings he hrel) rfl

theorem Model.call_mem {e : Entity} {m : Model} (h : Model.of e = .ok m) {a : Association}
    (ha : a ∈ e.associations.implicit.members) : Call.of e a ∈ m.calls := by
  obtain ⟨columns, -, hm⟩ := bind_eq_ok_iff.mp h
  rw [← Except.ok.inj hm]
  exact List.mem_map_of_mem (e.associations.implicit.listed_perm.mem_iff.mpr ha)

/-! ## Runs -/

end Scaffold
