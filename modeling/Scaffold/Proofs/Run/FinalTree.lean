import Scaffold.Proofs.Files.Changes
import Scaffold.Proofs.Run.OwnFiles

/-!
# The file tree behind a run

  A run without a formatter changes the file tree by its writes alone. What one
  write changes is known whether it succeeds or fails, and changes in a row are
  known from those of the parts, so the tree behind a run is settled by the list
  of files that the writer has taken: the last of them at each location, and
  nothing else, but for directories above the paths that it was handed.
-/

namespace Scaffold

open Files (Tree Location locate lastAt IsAbove)
open Files.Tree (Changes)

/-! ## What a writer takes -/

/-- The files that the writer takes, out of some that it is handed in turn. -/
def Writer.taken {σ : Type} (writer : Writer σ) (state : σ) :
    List (Path × String) → List (Path × String)
  | [] => []
  | file :: files =>
    (if (writer state file.1 file.2).1.isOk then [file] else []) ++
      writer.taken (writer state file.1 file.2).2 files

section Taken

variable {σ : Type} {writer : Writer σ}

theorem Writer.taken_append (state : σ) (files files' : List (Path × String)) :
    writer.taken state (files ++ files') =
      writer.taken state files ++ writer.taken (writer.behind state files) files' := by
  induction files generalizing state with
  | nil => rfl
  | cons file files ih =>
      rw [List.cons_append, taken, taken, ih, List.append_assoc]
      rfl

namespace Attempt

theorem written?_run (state : σ) (a : Attempt) :
    (a.run writer state).1.written?.toList =
      (writer.taken state a.file?.toList).map Prod.fst := by
  rw [run, file?]
  cases a.content with
  | error f => rfl
  | ok text =>
      show _ = ((if (writer state a.path text).1.isOk then [(a.path, text)] else []) ++ []).map
        Prod.fst
      dsimp only
      rcases writer state a.path text with ⟨result, state'⟩
      cases result <;> rfl

/-- The report lists the files that the writer has taken. -/
theorem filterMap_written (state : σ) (as : List Attempt) :
    (runAll writer state as).1.filterMap Outcome.written? =
      (writer.taken state (as.filterMap file?)).map Prod.fst := by
  simp only [List.filterMap_eq_flatMap_toList] at *
  induction as generalizing state with
  | nil => rfl
  | cons a as ih =>
      have hstate : (a.run writer state).2 = writer.behind state a.file?.toList := by rw [run_eq]
      rw [runAll, List.flatMap_cons, List.flatMap_cons, Writer.taken_append, List.map_append,
        ← written?_run, ← hstate, ← ih]

end Attempt

end Taken

namespace Workspace

variable (effect : Command.Effect)

theorem writer_files (w : Workspace) (p : Path) (text : String) :
    (writer effect none w p text).2.files = (w.files.write p text.toUTF8).2 := by
  rw [writer_snd]
  cases (w.files.write p text.toUTF8).1 with
  | error f => rfl
  | ok u => rfl

/-- One file that the writer is handed is put at its location if it is taken. -/
theorem changes_writer (w : Workspace) (p : Path) (text : String) :
    Changes (if (writer effect none w p text).1.isOk then
        [(locate w.files.current p, text.toUTF8)] else [])
      (fun l => ∃ q, IsAbove q p ∧ l = locate w.files.current q) w.files
      (writer effect none w p text).2.files := by
  rw [writer_fst, writer_files]
  exact .write w.files p text.toUTF8

/-- The files that a list of writes leaves, from those that the writer takes. -/
theorem changes_behind (w : Workspace) (files : List (Path × String)) :
    Changes (((writer effect none).taken w files).map fun file =>
        (locate w.files.current file.1, file.2.toUTF8))
      (fun l => ∃ file ∈ files, ∃ q, IsAbove q file.1 ∧ l = locate w.files.current q) w.files
      ((writer effect none).behind w files).files := by
  induction files generalizing w with
  | nil => exact .refl _ w.files
  | cons file files ih =>
      have hfirst := changes_writer effect w file.1 file.2
      have hrest := ih (writer effect none w file.1 file.2).2
      -- locations are told from one current directory all the way
      rw [hfirst.current] at hrest
      rw [Writer.taken, List.map_append]
      have hput : (if (writer effect none w file.1 file.2).1.isOk = true then [file] else []).map
          (fun file => (locate w.files.current file.1, file.2.toUTF8)) =
            if (writer effect none w file.1 file.2).1.isOk = true then
              [(locate w.files.current file.1, file.2.toUTF8)] else [] := by
        split <;> rfl
      rw [hput]
      refine (hfirst.mono ?_).trans (hrest.mono ?_)
      · rintro l hl
        exact ⟨file, List.mem_cons_self, hl⟩
      · rintro l ⟨other, hother, hl⟩
        exact ⟨other, List.mem_cons_of_mem file hother, hl⟩

end Workspace

/-! ## Runs -/

/-- The file tree of `w'`, where a writer of files has been handed some files in turn. -/
structure FinalTree (writer : Writer Workspace) (w : Workspace) (files : List (Path × String))
    (r : Report) (w' : Workspace) : Prop where
  /-- The report lists the files that the writer has taken. -/
  written : r.written = (writer.taken w files).map Prod.fst
  /-- At every location stands the last file that has been taken there, or the file from before,
      and the only directories that are new are above the paths of files. -/
  changes : Changes ((writer.taken w files).map fun file =>
      (locate w.files.current file.1, file.2.toUTF8))
    (fun l => ∃ file ∈ files, ∃ q, IsAbove q file.1 ∧ l = locate w.files.current q)
    w.files w'.files
  /-- A file that is not taken leaves all files as they are. -/
  failed : ∀ before file after, files = before ++ file :: after →
    (writer (writer.behind w before) file.1 file.2).1.isOk = false →
      ∀ l, (writer (writer.behind w before) file.1 file.2).2.files.bytes? l =
        (writer.behind w before).files.bytes? l

/-- **The final file tree**: behind every run that writes files, and has no formatter, the files
    are those from before with the files that have been written put over them in turn. A write that
    fails changes no file, and nothing is made but directories above the paths of the run. -/
theorem final_tree {effect : Command.Effect} {clock : Clock} {settings : Settings}
    {w w' : Workspace} {r : Report} (hrun : generate effect clock settings w = (.ok r, w'))
    (hdry : settings.dryRun = false) (hformatter : settings.formatter = none) :
    ∃ batch as, settings.batch w.files = .ok batch ∧
      (attempts settings clock Stamper.new batch).1 = some as ∧
      FinalTree (Workspace.writer effect none) w (as.filterMap Attempt.file?) r w' := by
  have hwriter : settings.writer effect = Workspace.writer effect none := by
    rw [Settings.writer, hdry, ← hformatter]
    rfl
  rw [generate, hwriter] at hrun
  cases hbatch : settings.batch w.files with
  | error f =>
      rw [hbatch] at hrun
      cases (Prod.mk.inj hrun).1
  | ok batch =>
      rw [hbatch] at hrun
      dsimp only at hrun
      split at hrun
      · rename_i r₁ s' w₁ hrun₁
        obtain ⟨hr, hw'⟩ := Prod.mk.inj hrun
        obtain ⟨as, has, hreport, hstate⟩ := exists_attempts_of_run hrun₁
        refine ⟨batch, as, rfl, congrArg Prod.fst has, ?_, ?_, ?_⟩
        · rw [← Except.ok.inj hr, hreport]
          exact Attempt.filterMap_written w as
        · rw [← hw', hstate, Attempt.runAll_eq]
          exact Workspace.changes_behind effect w _
        · intro before file after _ hfailed l
          have hchanges := Workspace.changes_writer effect
            ((Workspace.writer effect none).behind w before) file.1 file.2
          rw [hfailed] at hchanges
          exact hchanges.files l
      · cases (Prod.mk.inj hrun).1

/-- A tree with one definition among its models, and a file where a run makes a directory. -/
def blockedTree : Tree where
  entries := [(["here"], .directory), (["models", "here"], .directory),
    (["book.json", "models", "here"], .file
      "\x7b\"model\":\"book\",\"storageType\":\"webservice\",\"attributes\":\x7b\x7d\x7d".toUTF8),
    (["o", "here"], .directory), (["models", "o", "here"], .file "notes".toUTF8)]
  distinct := by decide
  current := ["here"]

theorem final_tree_sample :
    ∃ r w' batch as, generate (fun _ => id) frozenClock { nearSettings with modelsDir := ⟨"models"⟩ }
        ⟨blockedTree, ""⟩ = (.ok r, w') ∧
      r.written.length = 5 ∧ r.artifactFailures.length = 1 ∧
      Settings.batch { nearSettings with modelsDir := ⟨"models"⟩ } blockedTree = .ok batch ∧
      (attempts { nearSettings with modelsDir := ⟨"models"⟩ } frozenClock Stamper.new batch).1 =
        some as ∧
      FinalTree (Workspace.writer (fun _ => id) none) ⟨blockedTree, ""⟩
        (as.filterMap Attempt.file?) r w' := by
  have hlengths : (generate (fun _ => id) frozenClock { nearSettings with modelsDir := ⟨"models"⟩ }
      ⟨blockedTree, ""⟩).1.toOption.map
        (fun r => (r.written.length, r.artifactFailures.length)) = some (5, 1) := by
    decide +kernel
  cases hrun : generate (fun _ => id) frozenClock { nearSettings with modelsDir := ⟨"models"⟩ }
      ⟨blockedTree, ""⟩ with
  | mk result w' =>
      rw [hrun] at hlengths
      cases result with
      | error f => exact nomatch hlengths
      | ok r =>
          obtain ⟨hwritten, hfailures⟩ := Prod.mk.inj (Option.some.inj hlengths)
          obtain ⟨batch, as, hbatch, has, hfinal⟩ := final_tree hrun rfl rfl
          exact ⟨r, w', batch, as, rfl, hwritten, hfailures, hbatch, has, hfinal⟩

end Scaffold
