import Scaffold.Proofs.Files.Writing
import Scaffold.Proofs.Run.Writes
import Scaffold.Run.Workspace

/-!
# What a run leaves in the files

  A file that has been written holds its text until its location is written to
  again. A formatter may change the file that it is run on and nothing else;
  then the file holds what the formatter has made of the text. The heart is
  that every write, with the formatter behind it, keeps the tree but for the
  one location, so a whole list of writes keeps it but for theirs.
-/

namespace Scaffold

open Files (Tree Location locate)
open Files.Tree (KeptBut)

/-! ## Formatters -/

/-- The workspace after the formatter, if there is one, has been run on a path. -/
def Workspace.formatted (effect : Command.Effect) (formatter : Option Command) (p : Path)
    (w : Workspace) : Workspace :=
  match formatter with
  | some command => effect (command.onPath p) w
  | none => w

/-- Run on a path, the formatter takes nothing away and changes no file but the one at the
    path. -/
def Command.Effect.Formats (effect : Command.Effect) (formatter : Option Command) : Prop :=
  ∀ (p : Path) (w : Workspace),
    KeptBut [locate w.files.current p] w.files (w.formatted effect formatter p).files

theorem Command.Effect.formats_none (effect : Command.Effect) : effect.Formats none :=
  fun p w => .refl [locate w.files.current p] w.files

/-- The file at the path holds the text, as the formatter has left it. -/
def Workspace.Holds (effect : Command.Effect) (formatter : Option Command) (w : Workspace)
    (p : Path) (text : String) : Prop :=
  ∃ (v : Workspace) (bytes : ByteArray), v.files.read p = .ok text.toUTF8 ∧
    (v.formatted effect formatter p).files.read p = .ok bytes ∧ w.files.read p = .ok bytes

/-- Without a formatter the file holds the text itself. -/
theorem Workspace.holds_none_iff {effect : Command.Effect} {w : Workspace} {p : Path}
    {text : String} : w.Holds effect none p text ↔ w.files.read p = .ok text.toUTF8 := by
  constructor
  · rintro ⟨v, bytes, hv, hformatted, hw⟩
    rw [hw, ← hv]
    exact hformatted.symm
  · intro hw
    exact ⟨w, _, hw, hw, hw⟩

namespace Workspace

variable {effect : Command.Effect} {formatter : Option Command}

/-! ## One file -/

theorem writer_snd (w : Workspace) (p : Path) (text : String) :
    (writer effect formatter w p text).2 =
      match (w.files.write p text.toUTF8).1 with
      | .ok () => formatted effect formatter p { w with files := (w.files.write p text.toUTF8).2 }
      | .error _ => { w with files := (w.files.write p text.toUTF8).2 } := by
  rw [writer]
  rcases w.files.write p text.toUTF8 with ⟨result, files⟩
  cases result with
  | ok u => cases formatter <;> rfl
  | error f => rfl

theorem writer_fst (w : Workspace) (p : Path) (text : String) :
    (writer effect formatter w p text).1 = (w.files.write p text.toUTF8).1 := by
  rw [writer]
  rcases w.files.write p text.toUTF8 with ⟨result, files⟩
  cases result <;> rfl

/-- Whatever comes of a write, nothing changes but the file at its location. -/
theorem keptBut_writer (hformats : effect.Formats formatter) (w : Workspace) (p : Path)
    (text : String) :
    KeptBut [locate w.files.current p] w.files (writer effect formatter w p text).2.files := by
  have hkept := KeptBut.write w.files p text.toUTF8
  rw [writer_snd]
  cases (w.files.write p text.toUTF8).1 with
  | error f => exact hkept
  | ok u =>
      have hformatted := hformats p { w with files := (w.files.write p text.toUTF8).2 }
      rw [show ({ w with files := (w.files.write p text.toUTF8).2 } : Workspace).files.current =
        w.files.current from hkept.current] at hformatted
      exact (hkept.trans hformatted).mono fun l hl => by simpa using hl

/-- A file that has been written holds its text. -/
theorem holds_writer (hformats : effect.Formats formatter) {w : Workspace} {p : Path}
    {text : String} (hok : (writer effect formatter w p text).1 = .ok ()) :
    (writer effect formatter w p text).2.Holds effect formatter p text := by
  rw [writer_fst] at hok
  have hread := Tree.read_of_write (Prod.ext hok rfl : w.files.write p text.toUTF8 = (.ok (), _))
  obtain ⟨bytes, hbytes, -⟩ :=
    (hformats p { w with files := (w.files.write p text.toUTF8).2 }).read hread
  rw [writer_snd, hok]
  exact ⟨{ w with files := (w.files.write p text.toUTF8).2 }, bytes, hread, hbytes, hbytes⟩

theorem Holds.keptBut {w w' : Workspace} {changed : List Location} {p : Path} {text : String}
    (h : w.Holds effect formatter p text) (hkept : KeptBut changed w.files w'.files)
    (hnot : locate w.files.current p ∉ changed) : w'.Holds effect formatter p text := by
  obtain ⟨v, bytes, hv, hformatted, hw⟩ := h
  obtain ⟨bytes', hw', heq⟩ := hkept.read hw
  exact ⟨v, bytes, hv, hformatted, heq hnot ▸ hw'⟩

/-! ## Files in turn -/

/-- A list of writes changes nothing but the files at their locations. -/
theorem keptBut_behind (hformats : effect.Formats formatter) (w : Workspace)
    (files : List (Path × String)) :
    KeptBut (files.map fun file => locate w.files.current file.1) w.files
      ((writer effect formatter).behind w files).files := by
  induction files generalizing w with
  | nil => exact .refl [] w.files
  | cons file files ih =>
      have hfirst := keptBut_writer hformats w file.1 file.2
      have hrest := ih (writer effect formatter w file.1 file.2).2
      rw [hfirst.current] at hrest
      exact hfirst.trans hrest

/-- The last write to a location settles what its file holds. -/
theorem holds_of_last (hformats : effect.Formats formatter) (w : Workspace)
    (before after : List (Path × String)) (p : Path) (text : String)
    (hok : (writer effect formatter ((writer effect formatter).behind w before) p text).1 = .ok ())
    (hlast : locate w.files.current p ∉ after.map fun file => locate w.files.current file.1) :
    ((writer effect formatter).behind w (before ++ (p, text) :: after)).Holds effect formatter p
      text := by
  have hbefore := keptBut_behind hformats w before
  have hfile := keptBut_writer hformats ((writer effect formatter).behind w before) p text
  have hafter := keptBut_behind hformats
    (writer effect formatter ((writer effect formatter).behind w before) p text).2 after
  -- locations are told from one current directory all the way
  have hcurrent := hfile.current.trans hbefore.current
  rw [hcurrent] at hafter
  rw [Writer.behind, List.foldl_append]
  refine (holds_writer hformats hok).keptBut hafter ?_
  rw [hcurrent]
  exact hlast

end Workspace

/-! ## Runs without failures -/

section Success

variable {σ : Type} {writer : Writer σ}

/-- If no attempt has failed, every one of them has been rendered and written in its turn. -/
theorem Attempt.all_written {state : σ} {as : List Attempt}
    (h : (runAll writer state as).1.filterMap Outcome.failure? = []) :
    (runAll writer state as).1.filterMap Outcome.written? = as.map Attempt.path ∧
      ∀ before a after, as = before ++ a :: after → ∃ text, a.content = .ok text ∧
        (writer (writer.behind state (before.filterMap file?)) a.path text).1 = .ok () := by
  induction as generalizing state with
  | nil => exact ⟨rfl, fun before a after has => nomatch List.append_eq_nil_iff.mp has.symm⟩
  | cons a as ih =>
      rw [runAll, run_eq] at h ⊢
      dsimp only at h ⊢
      rw [List.filterMap_cons, Outcome.failure?] at h
      rw [List.filterMap_cons, Outcome.written?]
      cases hresult : a.resultIn writer state with
      | error f =>
          rw [hresult] at h
          exact absurd h (List.cons_ne_nil _ _)
      | ok u =>
          rw [hresult] at h
          obtain ⟨hwritten, hturn⟩ := ih h
          refine ⟨congrArg (a.path :: ·) hwritten, fun before b after has => ?_⟩
          cases before with
          | nil =>
              obtain ⟨rfl, -⟩ := List.cons.inj has
              obtain ⟨text, hcontent, hwrite⟩ := bind_eq_ok_iff.mp hresult
              exact ⟨text, hcontent, mapError_eq_ok_iff.mp hwrite⟩
          | cons c before =>
              obtain ⟨rfl, hrest⟩ := List.cons.inj has
              rw [behind_cons]
              exact hturn before b after hrest

theorem Report.artifactFailures_of_success {r : Report} (h : r.isSuccess = true) :
    r.artifactFailures = [] := by
  rw [isSuccess, failureCount, beq_iff_eq] at h
  exact List.length_eq_zero_iff.mp (Nat.eq_zero_of_add_eq_zero_left h)

end Success

/-- A run without failures leaves in each file the text of its attempt, if the attempts have
    locations of their own. -/
theorem Attempt.holds_of_all_written {effect : Command.Effect} {formatter : Option Command}
    (hformats : effect.Formats formatter) {w : Workspace} {as : List Attempt}
    (h : (runAll (Workspace.writer effect formatter) w as).1.filterMap Outcome.failure? = [])
    (hown : (as.map fun a => locate w.files.current a.path).Nodup) {a : Attempt} (ha : a ∈ as) :
    ∃ text, a.content = .ok text ∧
      (runAll (Workspace.writer effect formatter) w as).2.Holds effect formatter a.path text := by
  obtain ⟨before, after, has⟩ := List.append_of_mem ha
  obtain ⟨text, hcontent, hok⟩ := (all_written h).2 before a after has
  refine ⟨text, hcontent, ?_⟩
  have hfiles : as.filterMap file? =
      before.filterMap file? ++ (a.path, text) :: after.filterMap file? := by
    have hfile : a.file? = some (a.path, text) := by rw [file?, hcontent]
    rw [has, List.filterMap_append, List.filterMap_cons_some hfile]
  rw [runAll_eq, hfiles]
  refine Workspace.holds_of_last hformats w _ _ a.path text hok fun hmem => ?_
  -- a later file at the same location would be one of a later attempt
  obtain ⟨file, hfile, hlocate⟩ := List.mem_map.mp hmem
  obtain ⟨b, hb, hbfile⟩ := List.mem_filterMap.mp hfile
  rw [has, List.map_append, List.map_cons] at hown
  refine (List.nodup_cons.mp (List.nodup_append.mp hown).2.1).1 (List.mem_map.mpr ⟨b, hb, ?_⟩)
  rw [path_of_file? hbfile, hlocate]

end Scaffold
