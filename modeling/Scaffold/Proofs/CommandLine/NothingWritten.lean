import Scaffold.CommandLine.Ending
import Scaffold.Proofs.CommandLine.Arguments
import Scaffold.Proofs.Run.FinalTree
import Scaffold.Proofs.Run.Idle
import Scaffold.Proofs.Settings.Layers

/-!
# Command lines that write nothing

  A run can be made a dry one in several places, and a command line can fail in
  several others before anything has been written. All of these places come
  together in two: settings that ask for a dry run, however they came about,
  and a run that has not got as far as a report.
-/

namespace Scaffold.CommandLine

open Settings (Environment Given Layer lowerLayer)

variable {clock : Clock} {env : Environment} {w : Workspace} {s : Settings}

/-! ## Tasks -/

/-- Printing, or failing to, is idle. -/
theorem idle_printing (w : Workspace) (text : Except Failure String) :
    Idle w fun _ => printing w text := by
  cases text with
  | ok text => exact ⟨.ok (), text, fun _ => rfl⟩
  | error f => exact .of_answer fun _ => rfl

/-- A task other than generating is idle. -/
theorem idle_of_ne_generate {task : Task} (h : task ≠ .generate) (clock : Clock) (s : Settings)
    (w : Workspace) : Idle w fun effect => task.perform effect clock s w := by
  cases task with
  | generate => exact absurd rfl h
  | inspect => exact idle_printing w _
  | options file => exact idle_printing w _

/-- Generating with settings that can be used is idle if the run is; what follows prints at most
    its summary. -/
theorem idle_generating (h : s.check w.files.isDirectory = .ok () →
      Idle w fun effect => generate effect clock s w) :
    Idle w fun effect => generating effect clock s w := by
  cases hcheck : s.check w.files.isDirectory with
  | error f =>
      refine .of_answer (a := .error (.failure f)) fun effect => ?_
      rw [generating, hcheck]
  | ok u =>
      obtain ⟨result, text, h⟩ := h hcheck
      cases result with
      | error f =>
          refine ⟨.error (.failure f), text, fun effect => ?_⟩
          simp only [generating, hcheck, h]
      | ok r =>
          refine ⟨stopOf r, text ++ summary s r, fun effect => ?_⟩
          simp only [generating, hcheck, h, Workspace.print_print]

/-! ## Command lines -/

/-- A command line is idle unless it asks for a run with settings that can be used, and that run
    is not. -/
theorem idle_perform {arguments : List String}
    (h : ∀ o s, Invocation.ofArguments arguments = .run o .generate →
      o.settings w.files env = .ok s → s.check w.files.isDirectory = .ok () →
        Idle w fun effect => generate effect clock s w) :
    Idle w fun effect => perform effect clock env arguments w := by
  cases hi : Invocation.ofArguments arguments with
  | help =>
      refine ⟨.success, usage, fun effect => ?_⟩
      simp only [perform, hi, Invocation.perform]
  | version =>
      refine ⟨.success, versionLine, fun effect => ?_⟩
      simp only [perform, hi, Invocation.perform]
  | misuse =>
      refine .of_answer (a := ⟨2, usage⟩) fun effect => ?_
      simp only [perform, hi, Invocation.perform]
  | run o task =>
      cases hs : o.settings w.files env with
      | error f =>
          refine .of_answer (a := .of (.error (.failure f))) fun effect => ?_
          rw [perform, hi, Invocation.perform, hs]
      | ok s =>
          have htask : Idle w fun effect => task.perform effect clock s w := by
            by_cases hgenerate : task = .generate
            · subst hgenerate
              exact idle_generating (h o s hi hs)
            · exact idle_of_ne_generate hgenerate clock s w
          obtain ⟨result, text, htask⟩ := htask
          refine ⟨.of result, text, fun effect => ?_⟩
          simp only [perform, hi, Invocation.perform, hs, htask]

/-- The settings of a command line ask for a dry run if its options do, or else what is loaded. -/
theorem dryRun_of_settings {o : Options} {t : Files.Tree} (h : o.settings t env = .ok s) :
    ∃ loaded, Settings.load t env o.config = .ok loaded ∧
      s.dryRun = (o.dryRun || loaded.dryRun) := by
  obtain ⟨loaded, hloaded, rfl⟩ := map_eq_ok_iff.mp h
  exact ⟨loaded, hloaded, rfl⟩

/-- Why a command line must not write. -/
inductive MustNotWrite (clock : Clock) (env : Environment) (w : Workspace)
    (arguments : List String) : Prop where
  /-- A dry run is asked for by an argument. -/
  | argument (h : dryRunWord ∈ arguments)
  /-- A dry run is asked for by a variable of the environment. -/
  | environment {given : Given} (hgiven : (Layer.ofEnvironment env).get? "dry_run" = some given)
      (hflag : given.flag? = some true)
  /-- A dry run is asked for by the file, and the environment does not speak of it. -/
  | file {o : Options} {task : Task} {lower : Layer} {given : Given}
      (hrun : Invocation.ofArguments arguments = .run o task)
      (hlower : lowerLayer w.files o.config = .ok lower)
      (henv : (Layer.ofEnvironment env).get? "dry_run" = none)
      (hgiven : lower.get? "dry_run" = some given) (hflag : given.flag? = some true)
  /-- The settings of the command line, from wherever, ask for a dry run. -/
  | settings {o : Options} {task : Task} {s : Settings}
      (hrun : Invocation.ofArguments arguments = .run o task)
      (hs : o.settings w.files env = .ok s) (hdry : s.dryRun = true)
  /-- The command line asks for another task than generating, or for none. -/
  | task (h : ∀ o, Invocation.ofArguments arguments ≠ .run o .generate)
  /-- There are no settings. -/
  | unloaded {o : Options} {task : Task} {f : Failure}
      (hrun : Invocation.ofArguments arguments = .run o task)
      (hs : o.settings w.files env = .error f)
  /-- The settings cannot be used. -/
  | invalid {o : Options} {task : Task} {s : Settings} {f : Failure}
      (hrun : Invocation.ofArguments arguments = .run o task)
      (hs : o.settings w.files env = .ok s) (hcheck : s.check w.files.isDirectory = .error f)
  /-- The run fails before it has a report. -/
  | noReport {o : Options} {task : Task} {s : Settings} {effect : Command.Effect} {f : Failure}
      (hrun : Invocation.ofArguments arguments = .run o task)
      (hs : o.settings w.files env = .ok s) (hf : f ≠ .endOfCalendar)
      (hresult : (generate effect clock s w).1 = .error f)

theorem idle_of_mustNotWrite {arguments : List String}
    (h : MustNotWrite clock env w arguments) :
    Idle w fun effect => perform effect clock env arguments w := by
  refine idle_perform fun o s hrun hs hcheck => ?_
  obtain ⟨loaded, hloaded, hdry⟩ := dryRun_of_settings hs
  obtain ⟨lower, hlower, -⟩ := Settings.load_eq_ok_iff.mp hloaded
  cases h with
  | argument hmem =>
      have ho : o.dryRun = true := by
        refine (Invocation.dryRun_of_mem hrun hmem).resolve_right ?_
        rintro ⟨file, hfile⟩
        exact nomatch hfile
      exact idle_of_dryRun clock w (by rw [hdry, ho, Bool.true_or])
  | environment hgiven hflag =>
      have hon := Settings.dryRun_of_load hloaded hlower (by rw [hgiven]; rfl) hflag
      exact idle_of_dryRun clock w (by rw [hdry, hon, Bool.or_true])
  | file hrun' hlower' henv hgiven hflag =>
      cases hrun.symm.trans hrun'
      have hon := Settings.dryRun_of_load hloaded hlower' (by rw [henv, hgiven]; rfl) hflag
      exact idle_of_dryRun clock w (by rw [hdry, hon, Bool.or_true])
  | settings hrun' hs' hdry' =>
      cases hrun.symm.trans hrun'
      cases hs.symm.trans hs'
      exact idle_of_dryRun clock w hdry'
  | task h => exact absurd hrun (h o)
  | unloaded hrun' hs' =>
      cases hrun.symm.trans hrun'
      exact nomatch hs.symm.trans hs'
  | invalid hrun' hs' hcheck' =>
      cases hrun.symm.trans hrun'
      cases hs.symm.trans hs'
      exact nomatch hcheck.symm.trans hcheck'
  | noReport hrun' hs' hf hresult =>
      cases hrun.symm.trans hrun'
      cases hs.symm.trans hs'
      exact idle_of_generate_error hresult hf

/-- **What must not write does not write.** In every workspace, with every environment and
    clock, a dry run leaves the files as they were and starts no command, and so does every run
    that ends in an error instead of a report, every build that fails for another cause than
    failures in its run, and every command line that must not write. The end of the calendar is
    none of these errors, as the program breaks off there and returns nothing. -/
theorem nothing_written (clock : Clock) (env : Environment) (w : Workspace) :
    (∀ s : Settings, s.dryRun = true → Idle w fun effect => generate effect clock s w) ∧
    (∀ (s : Settings) (effect : Command.Effect) (f : Failure),
      (generate effect clock s w).1 = .error f → f ≠ .endOfCalendar →
        Idle w fun effect => generate effect clock s w) ∧
    (∀ (effect : Command.Effect) (f : Failure), (build effect clock env w).1 = .error f →
      (∀ n, f ≠ .incomplete n) → f ≠ .endOfCalendar →
        Idle w fun effect => build effect clock env w) ∧
    ∀ arguments, MustNotWrite clock env w arguments →
      Idle w fun effect => perform effect clock env arguments w :=
  ⟨fun _ => idle_of_dryRun clock w, fun _ _ _ => idle_of_generate_error,
    fun _ _ => idle_of_build_error, fun _ => idle_of_mustNotWrite⟩

/-- A dry run that gets as far as its report, a run and a build that do not, and a command line
    that would write if it were not for the environment. -/
theorem nothing_written_sample :
    Idle ⟨blockedTree, ""⟩ (fun effect =>
      generate effect frozenClock { modelsDir := ⟨"models"⟩, dryRun := true } ⟨blockedTree, ""⟩) ∧
    Idle ⟨blockedTree, ""⟩ (fun effect =>
      generate effect frozenClock { modelsDir := ⟨"nowhere"⟩ } ⟨blockedTree, ""⟩) ∧
    Idle ⟨blockedTree, ""⟩ (fun effect =>
      build effect frozenClock (.ofList [("Crudgen_Codegen_Dry_Run", "on")]) ⟨blockedTree, ""⟩) ∧
    Idle ⟨blockedTree, ""⟩ (fun effect =>
      perform effect frozenClock (.ofList [("Crudgen_Codegen_Dry_Run", "on")])
        ["-m", "models", "generate"] ⟨blockedTree, ""⟩) := by
  obtain ⟨hdry, herror, hbuild, hperform⟩ := nothing_written frozenClock
    (.ofList [("Crudgen_Codegen_Dry_Run", "on")]) ⟨blockedTree, ""⟩
  have hunread : (generate (fun _ => id) frozenClock { modelsDir := ⟨"nowhere"⟩ }
      ⟨blockedTree, ""⟩).1 = .error (.files .notFound) := by decide +kernel
  have hunset : (build (fun _ => id) frozenClock (.ofList [("Crudgen_Codegen_Dry_Run", "on")])
      ⟨blockedTree, ""⟩).1 = .error (.settings (.unset "CARGO_MANIFEST_DIR")) := by decide +kernel
  have hgiven : (Layer.ofEnvironment (.ofList [("Crudgen_Codegen_Dry_Run", "on")])).get? "dry_run" =
      some (.text "on") := by decide +kernel
  exact ⟨hdry _ rfl, herror _ _ _ hunread nofun, hbuild _ _ hunset nofun nofun,
    hperform _ (.environment hgiven (by decide +kernel))⟩

end Scaffold.CommandLine
