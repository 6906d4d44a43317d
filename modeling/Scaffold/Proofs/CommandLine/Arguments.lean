import Scaffold.CommandLine.Arguments

/-!
# The dry run among the arguments

  The arguments of a command line are read from left to right, and what has
  been asked for stays asked for. So the word for a dry run makes the run a dry
  one, wherever it stands among the options. Behind the name of a task it is no
  option any more: there it is a mistake, or the name of a file to be shown.
-/

namespace Scaffold.CommandLine

/-- The argument for a dry run. -/
def dryRunWord : String := "--dry-run"

theorem Argument.ofText_dryRunWord : Argument.ofText dryRunWord = .dryRun := by decide

/-- An argument of another form is not the one for a dry run. -/
theorem ne_dryRunWord {a : String} (h : Argument.ofText a ≠ .dryRun) : a ≠ dryRunWord := by
  rintro rfl
  exact h Argument.ofText_dryRunWord

/-! ## Options -/

namespace Options

variable {o o' : Options}

theorem dryRun_give {slot : Slot} {value : String} (h : o.give slot value = some o') :
    o'.dryRun = o.dryRun := by
  unfold give at h
  split at h
  · exact nomatch h
  · rw [← Option.some.inj h]
    cases slot <;> rfl

/-- A value that is still to be settled does not decide whether the run is a dry one. -/
theorem dryRun_settle {last : Option (Slot × Option String)} (h : o.settle last = some o') :
    o'.dryRun = o.dryRun := by
  cases last with
  | none => rw [Option.some.inj h]
  | some p =>
      obtain ⟨value, -, hgive⟩ := Option.bind_eq_some_iff.mp h
      exact dryRun_give hgive

end Options

/-! ## Tasks -/

/-- The task shows the entity of a file. -/
def Task.IsOptions (task : Task) : Prop := ∃ file, task = .options file

namespace TaskArguments

theorem isOptions_of_withFile {ended : Bool} {file : Option String} {arguments : List String}
    {t : Task} (h : withFile ended file arguments = .task t) : t.IsOptions := by
  fun_induction withFile ended file arguments with
  | case1 ended f => exact ⟨⟨f⟩, (TaskArguments.task.inj h).symm⟩
  | case4 file a as _ ih => exact ih h
  | case6 file a as _ _ _ ih => exact ih h
  | case8 file a as _ ih => exact ih h
  | case2 | case3 | case5 | case7 | case9 => exact nomatch h

/-- Behind the name of a task, the word for a dry run can only name a file. -/
theorem dryRunWord_notMem {name : String} {arguments : List String} {t : Task}
    (h : ofName name arguments = .task t) : dryRunWord ∉ arguments ∨ t.IsOptions := by
  have hbare : ∀ {t' : Task}, bare t' arguments = .task t → dryRunWord ∉ arguments := by
    intro t' h
    cases arguments with
    | nil => exact List.not_mem_nil
    | cons a as =>
        rw [bare] at h
        split at h
        · exact nomatch h
        · rename_i ha
          split at h
          · rename_i has
            rw [List.isEmpty_iff.mp has, List.mem_singleton]
            exact (ne_dryRunWord (by rw [ha]; exact nofun)).symm
          · exact nomatch h
        · exact nomatch h
  unfold ofName at h
  split at h
  · exact Or.inl (hbare h)
  · exact Or.inl (hbare h)
  · exact Or.inr (isOptions_of_withFile h)
  · exact nomatch h

end TaskArguments

/-! ## Whole command lines -/

namespace Invocation

theorem complete_eq_run {o o' : Options} {last : Option (Slot × Option String)}
    {arguments : TaskArguments} {task : Task} (h : complete o last arguments = .run o' task) :
    arguments = .task task ∧ o.settle last = some o' := by
  cases arguments with
  | help => exact nomatch h
  | misuse => exact nomatch h
  | task t =>
      rw [complete] at h
      split at h
      · rename_i o'' hsettle
        cases h
        exact ⟨rfl, hsettle⟩
      · exact nomatch h

theorem helpOn_ne_run (names : List String) (o : Options) (task : Task) :
    helpOn names ≠ .run o task := by
  fun_cases helpOn names <;> exact nofun

/-- If the argument in front is of another form, a dry run has been asked for before it, or
    still is to be asked for behind it. -/
theorem dryRunWord_behind {o : Options} {a : String} {as : List String}
    (h : o.dryRun = true ∨ dryRunWord ∈ a :: as) (ha : Argument.ofText a ≠ .dryRun) :
    o.dryRun = true ∨ dryRunWord ∈ as := by
  refine h.imp_right fun hmem => ?_
  exact (List.mem_cons.mp hmem).resolve_left (ne_dryRunWord ha).symm

/-- Where options end, the run is a dry one if that has been asked for. -/
theorem dryRun_of_complete {o o' : Options} {last : Option (Slot × Option String)}
    {arguments : TaskArguments} {task : Task} (h : complete o last arguments = .run o' task)
    (hdry : o.dryRun = true) : o'.dryRun = true := by
  rw [Options.dryRun_settle (complete_eq_run h).2, hdry]

/-- A run that has been asked to be dry, or still is to be asked, is dry. -/
theorem dryRun_of_read {o o' : Options} {last : Option (Slot × Option String)}
    {arguments : List String} {task : Task} (h : read o last arguments = .run o' task)
    (hdry : o.dryRun = true ∨ dryRunWord ∈ arguments) : o'.dryRun = true ∨ task.IsOptions := by
  fun_induction read o last arguments with
  | case1 o last => exact Or.inl (dryRun_of_complete h (hdry.resolve_right List.not_mem_nil))
  | case2 o a as s slot ha ih => exact ih h (dryRunWord_behind hdry (by rw [ha]; exact nofun))
  | case3 o last a as => exact absurd h (helpOn_ne_run as o' task)
  | case4 o last a as s ha =>
      rcases dryRunWord_behind hdry (by rw [ha]; exact nofun) with ho | hmem
      · exact Or.inl (dryRun_of_complete h ho)
      · exact Or.inr ((TaskArguments.dryRunWord_notMem (complete_eq_run h).1).resolve_left
          (not_not_intro hmem))
  | case5 o last a as ha has =>
      rw [List.isEmpty_iff.mp has] at hdry
      have ho := dryRunWord_behind hdry (by rw [ha]; exact nofun)
      exact Or.inl (dryRun_of_complete h (ho.resolve_right List.not_mem_nil))
  | case6 => exact nomatch h
  | case7 o last a as o₁ hsettle =>
      rw [hsettle] at h
      exact nomatch h
  | case8 o last a as o₁ hsettle =>
      rw [hsettle] at h
      exact nomatch h
  | case9 o last a as o₁ hsettle hdry₁ =>
      simp only [hsettle, hdry₁, if_true] at h
      exact nomatch h
  | case10 o last a as o₁ hsettle hdry₁ _ _ _ _ ih =>
      simp only [hsettle, hdry₁, if_false, Bool.false_eq_true] at h
      exact ih h (Or.inl rfl)
  | case11 o last a as o₁ slot hsettle _ _ ha _ ih =>
      simp only [hsettle] at h
      have hdry := dryRunWord_behind hdry (by rw [ha]; exact nofun)
      rw [← Options.dryRun_settle hsettle] at hdry
      exact ih h hdry
  | case12 o last a as o₁ slot value hsettle o₂ hgive _ _ ha _ ih =>
      simp only [hsettle, hgive] at h
      have hdry := dryRunWord_behind hdry (by rw [ha]; exact nofun)
      rw [← Options.dryRun_settle hsettle, ← Options.dryRun_give hgive] at hdry
      exact ih h hdry
  | case13 o last a as o₁ slot value hsettle hgive =>
      simp only [hsettle, hgive] at h
      exact nomatch h
  | case14 o last a as =>
      -- no branch above has been taken
      split at h
      all_goals grind

/-- **The word for a dry run makes a dry run,** or the run shows a file and writes nothing. -/
theorem dryRun_of_mem {o : Options} {arguments : List String} {task : Task}
    (h : ofArguments arguments = .run o task) (hdry : dryRunWord ∈ arguments) :
    o.dryRun = true ∨ task.IsOptions :=
  dryRun_of_read h (Or.inr hdry)

end Invocation

end Scaffold.CommandLine
