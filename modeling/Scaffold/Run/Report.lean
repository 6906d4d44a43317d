import Scaffold.Definition.Loading
import Scaffold.Run.Request

/-!
# Runs

  A run assembles the entities of a batch of definitions, settles where each
  file goes, and tries to write the files one after the other. Neither a
  definition that fails nor a file that cannot be written stops it; both are
  listed in its report. A writer is any way to write a file, with a state of
  its own.
-/

namespace Scaffold

/-- A way to write a file; it may fail, and it may change its state either way. -/
abbrev Writer (σ : Type) := σ → Path → String → Except Files.Fault Unit × σ

/-- The writer that writes nothing and always succeeds. -/
def Writer.dry {σ : Type} : Writer σ := fun s _ _ => (.ok (), s)

/-! ## Assembling -/

/-- A definition that is left out of a run. -/
structure EntityFailure where
  path : Path
  failure : Failure
  deriving DecidableEq

/-- The entity of a definition file. -/
def Loaded.entity (policy : Policy) (l : Loaded) : Except EntityFailure Entity :=
  match l.definition.bind (Entity.ofDefinition policy) with
  | .ok e => .ok e
  | .error f => .error ⟨l.path, f⟩

/-- The entities of a batch, in order. -/
def assembled (policy : Policy) (batch : List Loaded) : List Entity :=
  batch.filterMap fun l => (l.entity policy).toOption

/-- The definitions of a batch that are left out, in order. -/
def leftOut (policy : Policy) (batch : List Loaded) : List EntityFailure :=
  batch.filterMap fun l => match l.entity policy with
    | .ok _ => none
    | .error f => some f

/-! ## Writing -/

/-- An attempt and what came of it. -/
structure Outcome where
  template : Option Template
  path : Path
  result : Except Failure Unit

/-- Try to write one file. A text that cannot be rendered is not handed to the writer. -/
def Attempt.run {σ : Type} (writer : Writer σ) (s : σ) (a : Attempt) : Outcome × σ :=
  match a.content with
  | .error f => (⟨a.template, a.path, .error f⟩, s)
  | .ok text =>
    let (result, s') := writer s a.path text
    (⟨a.template, a.path, result.mapError (.write a.path.text)⟩, s')

/-- Try to write all files in turn. -/
def Attempt.runAll {σ : Type} (writer : Writer σ) : σ → List Attempt → List Outcome × σ
  | s, [] => ([], s)
  | s, a :: as =>
    let (o, s') := a.run writer s
    let (os, s'') := runAll writer s' as
    (o :: os, s'')

/-! ## Reports -/

/-- A file that could not be rendered or written. -/
structure ArtifactFailure where
  path : Path
  template : Option Template
  failure : Failure
  deriving DecidableEq

/-- What came of a run. -/
structure Report where
  /-- The names of the entities, in order. -/
  entities : List String
  /-- The files that were written, in order. -/
  written : List Path
  entityFailures : List EntityFailure
  artifactFailures : List ArtifactFailure
  deriving DecidableEq

/-- The path of an outcome, if its file was written. -/
def Outcome.written? (o : Outcome) : Option Path :=
  match o.result with
  | .ok () => some o.path
  | .error _ => none

/-- The failure of an outcome, if its file was not written. -/
def Outcome.failure? (o : Outcome) : Option ArtifactFailure :=
  match o.result with
  | .ok () => none
  | .error f => some ⟨o.path, o.template, f⟩

namespace Report

/-- The report on entities, definitions left out, and outcomes. -/
def of (entities : List Entity) (leftOut : List EntityFailure) (outcomes : List Outcome) :
    Report where
  entities := entities.map Entity.name
  written := outcomes.filterMap Outcome.written?
  entityFailures := leftOut
  artifactFailures := outcomes.filterMap Outcome.failure?

variable (r : Report)

/-- How many failures a report lists. -/
def failureCount : Nat := r.entityFailures.length + r.artifactFailures.length

/-- A report without failures. -/
def isSuccess : Bool := r.failureCount == 0

/-- The report itself, unless it lists failures. -/
def toResult : Except Failure Report :=
  if r.isSuccess then .ok r else .error (.incomplete r.failureCount)

end Report

/-! ## Whole runs -/

/-- What a run tries to write, for a stamper that may be in use already. There is no answer
    when the calendar ends. -/
def attempts (settings : Settings) (clock : Clock) (s : Stamper) (batch : List Loaded) :
    Option (List Attempt) × Stamper :=
  let requests := Request.all settings (assembled settings.policy batch)
  let (paths, s') := s.settleAll clock settings.outputDir (requests.map Request.place)
  (paths.map fun ps => requests.zipWith Request.at ps, s')

/-- A run on a batch of definitions. -/
def run {σ : Type} (settings : Settings) (clock : Clock) (writer : Writer σ) (s : Stamper)
    (state : σ) (batch : List Loaded) : Option Report × Stamper × σ :=
  match attempts settings clock s batch with
  | (none, s') => (none, s', state)
  | (some as, s') =>
    let (outcomes, state') := Attempt.runAll writer state as
    (some (Report.of (assembled settings.policy batch) (leftOut settings.policy batch) outcomes),
      s', state')

end Scaffold
