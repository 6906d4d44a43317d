import Scaffold.Proofs.Run.Count
import Scaffold.Proofs.Run.MigrationOrder
import Scaffold.Proofs.Run.Stepwise

/-!
# What comes of the writing

  What a run tries to write is settled before the first write, so no outcome of
  a write has a part in it. A writer that keeps a log makes this visible: the
  log is the list of attempts, whatever else the writer does. The report then
  tells of every attempt once. It is listed as written, under its path, if the
  writer took its text, and with its failure otherwise.
-/

namespace Scaffold

/-! ## Writers -/

section Writers

variable {σ : Type} (writer : Writer σ)

/-- The writer that also keeps a log of what it is handed. -/
def Writer.logged : Writer (σ × List (Path × String)) := fun s path text =>
  ((writer s.1 path text).1, (writer s.1 path text).2, s.2 ++ [(path, text)])

/-- The state of the writer behind files that it has been handed. -/
def Writer.behind (state : σ) (files : List (Path × String)) : σ :=
  files.foldl (fun s file => (writer s file.1 file.2).2) state

namespace Attempt

/-- The file that the writer is handed, unless there is no text for it. -/
def file? (a : Attempt) : Option (Path × String) :=
  match a.content with
  | .ok text => some (a.path, text)
  | .error _ => none

/-- What comes of an attempt for a writer in that state. -/
def resultIn (state : σ) (a : Attempt) : Except Failure Unit :=
  a.content.bind fun text => (writer state a.path text).1.mapError (.write a.path.text)

/-- What comes of attempts in turn. The writer is in the state in which the files before have
    left it. -/
def results (state : σ) (as : List Attempt) : List (Except Failure Unit) :=
  as.mapIdx fun n a => a.resultIn writer (writer.behind state ((as.take n).filterMap file?))

variable {writer}

theorem path_of_file? {a : Attempt} {file : Path × String} (h : a.file? = some file) :
    a.path = file.1 := by
  rw [file?] at h
  split at h
  · exact congrArg Prod.fst (Option.some.inj h)
  · exact nomatch h

theorem run_eq (state : σ) (a : Attempt) :
    a.run writer state =
      (⟨a.template, a.path, a.resultIn writer state⟩, writer.behind state a.file?.toList) := by
  rw [run, resultIn, file?]
  cases a.content <;> rfl

theorem behind_cons (state : σ) (a : Attempt) (as : List Attempt) :
    writer.behind state ((a :: as).filterMap file?) =
      writer.behind (writer.behind state a.file?.toList) (as.filterMap file?) := by
  rw [List.filterMap_cons]
  cases a.file? <;> rfl

theorem results_cons (state : σ) (a : Attempt) (as : List Attempt) :
    results writer state (a :: as) =
      a.resultIn writer state :: results writer (writer.behind state a.file?.toList) as := by
  rw [results, List.mapIdx_cons]
  simp only [List.take_zero, List.take_succ_cons, behind_cons]
  rfl

theorem runAll_eq (state : σ) (as : List Attempt) :
    runAll writer state as =
      (as.zipWith (fun a result => ⟨a.template, a.path, result⟩) (results writer state as),
        writer.behind state (as.filterMap file?)) := by
  induction as generalizing state with
  | nil => rfl
  | cons a as ih =>
      rw [runAll, run_eq, results_cons, behind_cons, List.zipWith_cons_cons]
      simp only [ih]

theorem length_results (state : σ) (as : List Attempt) :
    (results writer state as).length = as.length :=
  List.length_mapIdx

/-! ### The log -/

theorem resultIn_logged (state : σ × List (Path × String)) (a : Attempt) :
    a.resultIn writer.logged state = a.resultIn writer state.1 := rfl

theorem behind_logged (state : σ) (log files : List (Path × String)) :
    writer.logged.behind (state, log) files = (writer.behind state files, log ++ files) := by
  induction files generalizing state log with
  | nil => rw [List.append_nil]; rfl
  | cons file files ih =>
      refine (ih _ _).trans ?_
      rw [List.append_assoc]
      rfl

theorem results_logged (state : σ) (log : List (Path × String)) (as : List Attempt) :
    results writer.logged (state, log) as = results writer state as := by
  simp only [results, resultIn_logged, behind_logged]

/-- A log changes nothing, and lists the files of the attempts in turn. -/
theorem runAll_logged (state : σ) (as : List Attempt) :
    runAll writer.logged (state, []) as =
      ((runAll writer state as).1, (runAll writer state as).2, as.filterMap file?) := by
  rw [runAll_eq, runAll_eq, results_logged, behind_logged, List.nil_append]

/-! ### Writers that never fail -/

theorem resultIn_of_ok (hok : ∀ s path text, (writer s path text).1 = .ok ()) (state : σ)
    (a : Attempt) : a.resultIn writer state = a.content.map fun _ => () := by
  rw [resultIn]
  cases a.content with
  | error f => rfl
  | ok text =>
      show (writer state a.path text).1.mapError _ = _
      rw [hok]
      rfl

theorem results_of_ok (hok : ∀ s path text, (writer s path text).1 = .ok ()) (state : σ)
    (as : List Attempt) : results writer state as = as.map (·.content.map fun _ => ()) := by
  induction as generalizing state with
  | nil => rfl
  | cons a as ih =>
      rw [results_cons, resultIn_of_ok hok, ih]
      rfl

end Attempt

end Writers

/-! ## Reports -/

variable {σ : Type}

/-- The outcome of an attempt with that result. -/
def Outcome.of (told : Attempt × Except Failure Unit) : Outcome :=
  ⟨told.1.template, told.1.path, told.2⟩

/-- The entry of an attempt among the failures, if its result is one. -/
def Outcome.entry? (told : Attempt × Except Failure Unit) : Option ArtifactFailure :=
  match told.2 with
  | .ok () => none
  | .error f => some ⟨told.1.path, told.1.template, f⟩

theorem Outcome.filterMap_written (told : List (Attempt × Except Failure Unit)) :
    (told.map Outcome.of).filterMap Outcome.written? =
      (told.filter (·.2.isOk)).map (·.1.path) := by
  induction told with
  | nil => rfl
  | cons t told ih =>
      obtain ⟨a, result⟩ := t
      cases result with
      | error f => exact ih
      | ok u => exact congrArg (a.path :: ·) ih

theorem Outcome.filterMap_failure (told : List (Attempt × Except Failure Unit)) :
    (told.map Outcome.of).filterMap Outcome.failure? = told.filterMap Outcome.entry? := by
  rw [List.filterMap_map]
  rfl

theorem Attempt.runAll_fst (writer : Writer σ) (state : σ) (as : List Attempt) :
    (runAll writer state as).1 = (as.zip (results writer state as)).map Outcome.of := by
  rw [runAll_eq, ← List.map_uncurry_zip_eq_zipWith]
  rfl

/-- Every outcome is listed once. -/
theorem length_written_add_failures (os : List Outcome) :
    (os.filterMap Outcome.written?).length + (os.filterMap Outcome.failure?).length =
      os.length := by
  induction os with
  | nil => rfl
  | cons o os ih =>
      rw [List.filterMap_cons, List.filterMap_cons, Outcome.written?, Outcome.failure?]
      cases o.result with
      | ok u => simp only [List.length_cons]; omega
      | error f => simp only [List.length_cons]; omega

/-! ## What is attempted -/

/-- How many stamps a run draws. -/
def stampsOf (settings : Settings) (batch : List Loaded) : Nat :=
  ((requestsOf settings batch).map Request.place).countP Place.isStamped

theorem attempts_of_lasts {settings : Settings} {clock : Clock} {s : Stamper}
    {batch : List Loaded} (h : s.Lasts clock (stampsOf settings batch)) :
    ∃ as s', attempts settings clock s batch = (some as, s') := by
  obtain ⟨paths, s', hpaths⟩ := h.settleAll settings.outputDir
  refine ⟨(requestsOf settings batch).zipWith Request.at paths, s', ?_⟩
  have hall : Stamper.settleAll clock settings.outputDir s
      ((Request.all settings (assembled settings.policy batch)).map Request.place) =
        (some paths, s') := hpaths
  rw [attempts, hall]
  rfl

/-- The attempts at the two files that have no template. -/
def sharedAttempts (settings : Settings) : List Attempt :=
  [⟨none, (settings.outputDir.join Request.schemasDir).join "commons.js",
      .ok Shared.schemaCommons⟩,
    ⟨none, (settings.outputDir.join modelsDir).join "index.js", .ok Shared.modelsIndex⟩]

/-- The last two attempts have no template, all others have one. -/
theorem Named.shared_last {settings : Settings} {ts : List Moment} {es : List Entity}
    {as : List Attempt} (h : Named settings.outputDir ts (Request.all settings es) as) :
    ∃ bs, as = bs ++ sharedAttempts settings ∧ ∀ b ∈ bs, b.template.isSome = true := by
  rw [Request.all_eq] at h
  obtain ⟨ts₁, ts₂, bs, cs, rfl, hbs, hcs⟩ := h.split
  have hbs' : ∀ b ∈ bs, b.template.isSome = true := by
    intro b hb
    obtain ⟨r, hr, hat, -⟩ := hbs.exists_request hb
    rw [hat]
    exact Request.template_isSome settings hr
  -- the index stands in front of the two
  obtain ⟨cs₁, rfl, hcommons⟩ := hcs.uncons_fixed rfl
  obtain ⟨cs₂, rfl, hmodels⟩ := hcommons.uncons_fixed rfl
  obtain ⟨cs₃, rfl, hnone⟩ := hmodels.uncons_fixed rfl
  cases hnone
  refine ⟨bs ++ [_], (List.append_assoc bs [_] _).symm, fun b hb => ?_⟩
  rcases List.mem_append.mp hb with hb | hb
  · exact hbs' b hb
  · rw [List.mem_singleton.mp hb]
    rfl

/-! ## All writers at once -/

/-- What a run with one writer and state comes to, when its attempts are `as`. -/
structure WrittenApart (settings : Settings) (clock : Clock) (s : Stamper) (batch : List Loaded)
    (as : List Attempt) (s' : Stamper) (writer : Writer σ) (state : σ) (r : Report) : Prop where
  run_eq : run settings clock writer s state batch =
    (some r, s', writer.behind state (as.filterMap Attempt.file?))
  /-- The run is the same when every file is named and written before the next. -/
  stepwise : (Progress.through settings clock writer s state batch).map
      (fun p => (p.report, p.stamper, p.state)) =
    some (r, s', writer.behind state (as.filterMap Attempt.file?))
  /-- The writer is handed the files of the attempts, no matter what it makes of them. -/
  log : run settings clock writer.logged s (state, []) batch =
    (some r, s', writer.behind state (as.filterMap Attempt.file?), as.filterMap Attempt.file?)
  /-- What has been written are the paths of the attempts that came out well. -/
  written : r.written =
    ((as.zip (Attempt.results writer state as)).filter (·.2.isOk)).map (·.1.path)
  /-- The failures are those of the other attempts, each with its path and template. -/
  failures : r.artifactFailures =
    (as.zip (Attempt.results writer state as)).filterMap Outcome.entry?
  total : r.written.length + r.artifactFailures.length =
    Request.total settings (assembled settings.policy batch)
  /-- A writer that never fails is told of as one that only pretends to write. -/
  dry : (∀ t path text, (writer t path text).1 = .ok ()) → ∀ (τ : Type) (t : τ),
    (run settings clock Writer.dry s t batch).1 = some r

/-- **Writes stand apart**: as long as the calendar lasts, a run has one list of attempts for all
    writers, only the two shared files among them are without a template, and whatever a writer
    makes of some files, the others are attempted all the same and the report tells of each. -/
theorem written_apart (settings : Settings) (clock : Clock) (s : Stamper) (batch : List Loaded)
    (h : s.Lasts clock (stampsOf settings batch)) :
    ∃ as s', attempts settings clock s batch = (some as, s') ∧
      (∃ bs, as = bs ++ sharedAttempts settings ∧ ∀ b ∈ bs, b.template.isSome = true) ∧
      ∀ (σ : Type) (writer : Writer σ) (state : σ),
        ∃ r, WrittenApart settings clock s batch as s' writer state r := by
  obtain ⟨as, s', has⟩ := attempts_of_lasts h
  obtain ⟨ts, -, hnamed⟩ := attempts_eq_some (congrArg Prod.fst has)
  refine ⟨as, s', has, hnamed.shared_last, fun σ writer state => ?_⟩
  have hrun := run_of_attempts has writer state
  have hstate : (Attempt.runAll writer state as).2 =
      writer.behind state (as.filterMap Attempt.file?) := by rw [Attempt.runAll_eq]
  rw [hstate] at hrun
  refine ⟨_, hrun, ?_, ?_, ?_, ?_, ?_, ?_⟩
  · rw [Progress.through_eq_run, hrun]
    rfl
  · rw [run_of_attempts has, Attempt.runAll_logged, hstate]
  · show List.filterMap _ (Attempt.runAll writer state as).1 = _
    rw [Attempt.runAll_fst, Outcome.filterMap_written]
  · show List.filterMap _ (Attempt.runAll writer state as).1 = _
    rw [Attempt.runAll_fst, Outcome.filterMap_failure]
  · refine (length_written_add_failures _).trans ?_
    rw [Attempt.runAll_fst, List.length_map, List.length_zip, Attempt.length_results,
      Nat.min_self, hnamed.length_eq]
    exact Request.length_all settings _
  · intro hok τ t
    rw [run_of_attempts has, Attempt.runAll_fst, Attempt.runAll_fst, Attempt.results_of_ok hok,
      Attempt.results_of_ok fun _ _ _ => rfl]

/-- The calendar lasts for the four migrations of the sample. -/
theorem lasts_sampleBatch : Stamper.new.Lasts frozenClock (stampsOf {} sampleBatch) := by
  have hall : ∀ m : Fin (stampsOf {} sampleBatch),
      (Stamper.new.time? frozenClock m).isSome = true := by decide +kernel
  intro m hm
  exact hall ⟨m, hm⟩

/-- A writer that refuses every other file. -/
def everyOther : Writer Nat := fun n _ _ =>
  (if n % 2 = 0 then .ok () else .error (.other "disk full"), n + 1)

/-- Two files cannot be rendered here, and of the eleven that remain five are refused. -/
theorem written_apart_sample :
    Stamper.new.Lasts frozenClock (stampsOf {} sampleBatch) ∧
    ∃ as s' r, attempts {} frozenClock Stamper.new sampleBatch = (some as, s') ∧
      WrittenApart {} frozenClock Stamper.new sampleBatch as s' everyOther 0 r ∧
      r.written.length = 6 ∧ r.artifactFailures.length = 7 := by
  obtain ⟨as, s', has, -, heach⟩ :=
    written_apart {} frozenClock Stamper.new sampleBatch lasts_sampleBatch
  obtain ⟨r, hr⟩ := heach Nat everyOther 0
  have hrun : (run {} frozenClock everyOther Stamper.new 0 sampleBatch).1 = some r := by
    rw [hr.run_eq]
  have hwritten : (run {} frozenClock everyOther Stamper.new 0 sampleBatch).1.map
      (fun r => (r.written.length, r.artifactFailures.length)) = some (6, 7) := by
    decide +kernel
  rw [hrun] at hwritten
  have hlengths := Prod.mk.inj (Option.some.inj hwritten)
  exact ⟨lasts_sampleBatch, as, s', r, has, hr, hlengths.1, hlengths.2⟩

end Scaffold
