import Scaffold.Proofs.Run.Writes
import Scaffold.Run.Build

/-!
# Runs that change nothing

  A command can do anything to a workspace, so what does not depend on what
  commands do has started none. An action is idle if, whatever commands do, the
  same answer comes of it and nothing has happened but that a text has been
  printed. A dry run is idle, and so is a run that fails before it has a
  report: by then it has only read.
-/

namespace Scaffold

/-! ## Idle actions -/

/-- Whatever commands do, the action gives the same answer and does nothing but print. -/
def Idle {α : Type} (w : Workspace) (action : Command.Effect → α × Workspace) : Prop :=
  ∃ answer text, ∀ effect, action effect = (answer, w.print text)

namespace Workspace

theorem print_empty (w : Workspace) : w.print "" = w := by
  rw [print, String.append_empty]

theorem print_print (w : Workspace) (s t : String) : (w.print s).print t = w.print (s ++ t) := by
  rw [print, print, print, String.append_assoc]

end Workspace

namespace Idle

variable {α : Type} {w : Workspace} {action : Command.Effect → α × Workspace}

/-- An action that only gives an answer is idle. -/
theorem of_answer {a : α} (h : ∀ effect, action effect = (a, w)) : Idle w action :=
  ⟨a, "", fun effect => by rw [h, Workspace.print_empty]⟩

/-- What has been printed before does not count. -/
theorem behind_print {text : String} (h : Idle (w.print text) action) : Idle w action := by
  obtain ⟨answer, more, h⟩ := h
  exact ⟨answer, text ++ more, fun effect => by rw [h, Workspace.print_print]⟩

end Idle

/-! ## Dry runs -/

/-- The writer that writes nothing leaves its state as it is. -/
theorem Writer.behind_dry {σ : Type} (state : σ) (files : List (Path × String)) :
    Writer.dry.behind state files = state := by
  induction files with
  | nil => rfl
  | cons file files ih => exact ih

theorem run_dry {σ : Type} (settings : Settings) (clock : Clock) (s : Stamper) (state : σ)
    (batch : List Loaded) : (run settings clock Writer.dry s state batch).2.2 = state := by
  rw [run]
  split
  · rfl
  · rw [Attempt.runAll_eq]
    exact Writer.behind_dry state _

variable {clock : Clock} {s : Settings} {w : Workspace}

/-- A dry run is idle, also where the calendar ends in it. -/
theorem idle_of_dryRun (clock : Clock) (w : Workspace) (hdry : s.dryRun = true) :
    Idle w fun effect => generate effect clock s w := by
  have hwriter : ∀ effect, s.writer effect = Writer.dry := fun effect => if_pos hdry
  cases hbatch : s.batch w.files with
  | error f => exact .of_answer fun effect => by rw [generate, hbatch]
  | ok batch =>
      have hstate := run_dry s clock Stamper.new w batch
      cases hrun : run s clock Writer.dry Stamper.new w batch with
      | mk result rest =>
          have hrest : rest.2 = w := by rw [hrun] at hstate; exact hstate
          cases result with
          | none =>
              refine .of_answer (a := .error .endOfCalendar) fun effect => ?_
              simp only [generate, hbatch, hwriter, hrun, hrest]
          | some r =>
              refine .of_answer (a := .ok r) fun effect => ?_
              simp only [generate, hbatch, hwriter, hrun, hrest]

/-! ## Runs without a report -/

/-- A run that ends in an error, other than at the end of the calendar, has found its definitions
    unreadable and has done nothing. -/
theorem generate_eq_of_error {effect : Command.Effect} {f : Failure}
    (h : (generate effect clock s w).1 = .error f) (hf : f ≠ .endOfCalendar)
    (effect' : Command.Effect) : generate effect' clock s w = (.error f, w) := by
  rw [generate] at h ⊢
  cases hbatch : s.batch w.files with
  | error g =>
      rw [hbatch] at h
      cases h
      rfl
  | ok batch =>
      rw [hbatch] at h
      dsimp only at h
      split at h
      · exact nomatch h
      · exact absurd (Except.error.inj h).symm hf

theorem idle_of_generate_error {effect : Command.Effect} {f : Failure}
    (h : (generate effect clock s w).1 = .error f) (hf : f ≠ .endOfCalendar) :
    Idle w fun effect => generate effect clock s w :=
  .of_answer (generate_eq_of_error h hf)

theorem Report.toResult_eq_error {r : Report} {f : Failure} (h : r.toResult = .error f) :
    f = .incomplete r.failureCount := by
  rw [toResult] at h
  split at h
  · exact nomatch h
  · exact (Except.error.inj h).symm

/-- A build that fails for another cause than failures in its run has done nothing but name the
    files on which it depends. -/
theorem idle_of_build_error {env : Settings.Environment} {effect : Command.Effect} {f : Failure}
    (h : (build effect clock env w).1 = .error f) (hincomplete : ∀ n, f ≠ .incomplete n)
    (hf : f ≠ .endOfCalendar) : Idle w fun effect => build effect clock env w := by
  cases hmanifest : Settings.manifestPath env with
  | error g => exact .of_answer fun effect => by rw [build, hmanifest]
  | ok manifest =>
      cases hs : Settings.ofManifest w.files env with
      | error g => exact .of_answer fun effect => by rw [build, hmanifest, hs]
      | ok s =>
          rw [build, hmanifest, hs] at h
          dsimp only at h
          have hafter : Idle (w.print (dependencyLine s.modelsDir ++ dependencyLine manifest))
              fun effect => build effect clock env w := by
            cases hresult : (generate effect clock s
                (w.print (dependencyLine s.modelsDir ++ dependencyLine manifest))).1 with
            | ok r =>
                rw [hresult] at h
                exact absurd (Report.toResult_eq_error h) (hincomplete _)
            | error g =>
                rw [hresult] at h
                cases h
                refine .of_answer (a := .error f) fun effect' => ?_
                rw [build, hmanifest, hs]
                dsimp only
                rw [generate_eq_of_error hresult hf effect']
                rfl
          exact hafter.behind_print

end Scaffold
