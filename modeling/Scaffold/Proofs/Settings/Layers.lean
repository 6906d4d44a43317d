import Scaffold.Proofs.Dict
import Scaffold.Proofs.Except
import Scaffold.Settings.Loading

/-!
# Settings in layers

  A setting is converted on its own, from what the upper layer holds under its
  name or, if that holds nothing, the lower one. So what has been loaded can be
  told one setting at a time, and nothing that is given for another setting
  has a part in it, unless it cannot be converted.
-/

namespace Scaffold.Settings

open Files (Tree)

/-- Of two layers the upper one decides about every name that it holds. -/
theorem Layer.get?_below (lower upper : Layer) (name : String) :
    (lower.below upper).get? name = (upper.get? name).or (lower.get? name) :=
  Dict.get?_insertAll_entries lower upper name

namespace Conversion

variable {α : Type} {c : Conversion α} {get? : String → Option α} {s : Settings}

/-- Settings are converted exactly if every one of them is. -/
theorem settings_eq_some_iff :
    c.settings get? = some s ↔
      field c.path? ⟨""⟩ (get? "models_dir") = some s.modelsDir ∧
      field c.path? ⟨"./generated"⟩ (get? "output_dir") = some s.outputDir ∧
      field c.text? "*" (get? "include_models") = some s.includeModels ∧
      field c.text? "" (get? "exclude_models") = some s.excludeModels ∧
      field c.flag? true (get? "generate_migrations") = some s.generateMigrations ∧
      field c.flag? true (get? "strict_associations") = some s.strictAssociations ∧
      c.optional (get? "format_command") = some s.formatCommand ∧
      field c.flag? false (get? "dry_run") = some s.dryRun ∧
      c.optional (get? "log_level") = some s.logLevel := by
  simp only [settings, Option.bind_eq_bind, Option.bind_eq_some_iff]
  constructor
  · rintro ⟨_, h₁, _, h₂, _, h₃, _, h₄, _, h₅, _, h₆, _, h₇, _, h₈, _, h₉, h⟩
    cases h
    exact ⟨h₁, h₂, h₃, h₄, h₅, h₆, h₇, h₈, h₉⟩
  · rintro ⟨h₁, h₂, h₃, h₄, h₅, h₆, h₇, h₈, h₉⟩
    exact ⟨_, h₁, _, h₂, _, h₃, _, h₄, _, h₅, _, h₆, _, h₇, _, h₈, _, h₉, rfl⟩

end Conversion

theorem usable_eq_ok_iff {α : Type} {source : Path} {o : Option α} {a : α} :
    usable source o = .ok a ↔ o = some a := by
  cases o with
  | none => exact ⟨nofun, nofun⟩
  | some b =>
      constructor
      · intro h
        rw [Except.ok.inj h]
      · intro h
        rw [Option.some.inj h]
        rfl

variable {t : Tree} {env : Environment} {name : Option Path} {s : Settings}

/-- Settings are loaded exactly if the file can be read and what it holds below the environment
    can be converted. -/
theorem load_eq_ok_iff :
    load t env name = .ok s ↔ ∃ lower, lowerLayer t name = .ok lower ∧
      Conversion.lenient.settings
        (fun key => ((Layer.ofEnvironment env).get? key).or (lower.get? key)) = some s := by
  rw [load, bind_eq_ok_iff]
  refine exists_congr fun lower => and_congr_right fun _ => ?_
  rw [usable_eq_ok_iff]
  have hget : (lower.below (Layer.ofEnvironment env)).get? =
      fun key => ((Layer.ofEnvironment env).get? key).or (lower.get? key) :=
    funext (Layer.get?_below lower (Layer.ofEnvironment env))
  rw [hget]

/-- What the upper layer that speaks of it says, a run is a dry one or not. -/
theorem dryRun_of_load {lower : Layer} {given : Given} {b : Bool} (h : load t env name = .ok s)
    (hlower : lowerLayer t name = .ok lower)
    (hgiven : ((Layer.ofEnvironment env).get? "dry_run").or (lower.get? "dry_run") = some given)
    (hflag : given.flag? = some b) : s.dryRun = b := by
  obtain ⟨lower', hlower', hs⟩ := load_eq_ok_iff.mp h
  cases hlower.symm.trans hlower'
  obtain ⟨-, -, -, -, -, -, -, hdry, -⟩ := Conversion.settings_eq_some_iff.mp hs
  rw [hgiven] at hdry
  exact (Option.some.inj (hflag.symm.trans hdry)).symm

end Scaffold.Settings
