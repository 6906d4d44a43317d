import Scaffold.Proofs.Run.Requests

/-!
# Runs, one definition at a time

  A run is defined in three strokes: all requests first, then their paths, then
  the writing. Here it is told once more as it can be watched. Definitions are
  taken one at a time, each file is named and written before the next one is
  named, and what cannot be known before the last definition comes at the end.
  Both ways come to the same. The heart is that naming does not look at what
  has been written, and writing does not look at the stamper, so the two can be
  drawn apart from a list in which they alternate.
-/

namespace Scaffold

/-! ## Batches -/

section Batches

variable {policy : Policy} {l : Loaded} (batch : List Loaded)

theorem Loaded.entity_eq (policy : Policy) (l : Loaded) :
    l.entity policy =
      (l.definition.bind (Entity.ofDefinition policy)).mapError fun f => ⟨l.path, f⟩ := by
  rw [entity]
  cases l.definition.bind (Entity.ofDefinition policy) <;> rfl

theorem assembled_cons_ok {e : Entity} (h : l.entity policy = .ok e) :
    assembled policy (l :: batch) = e :: assembled policy batch :=
  List.filterMap_cons_some (by rw [h]; rfl)

theorem assembled_cons_error {f : EntityFailure} (h : l.entity policy = .error f) :
    assembled policy (l :: batch) = assembled policy batch :=
  List.filterMap_cons_none (by rw [h]; rfl)

theorem leftOut_cons_ok {e : Entity} (h : l.entity policy = .ok e) :
    leftOut policy (l :: batch) = leftOut policy batch :=
  List.filterMap_cons_none (by rw [h])

theorem leftOut_cons_error {f : EntityFailure} (h : l.entity policy = .error f) :
    leftOut policy (l :: batch) = f :: leftOut policy batch :=
  List.filterMap_cons_some (by rw [h])

end Batches

/-! ## Progress -/

/-- How far a run has come. -/
structure Progress (σ : Type) where
  /-- The entities that have been assembled. -/
  entities : List Entity
  /-- The definitions that have been left out. -/
  failures : List EntityFailure
  outcomes : List Outcome
  stamper : Stamper
  /-- The state of the writer. -/
  state : σ

namespace Progress

variable {σ : Type} (settings : Settings) (clock : Clock) (writer : Writer σ)

/-- A run that has not taken any definition. -/
def start (s : Stamper) (state : σ) : Progress σ := ⟨[], [], [], s, state⟩

/-- Name a file and try to write it. There is no answer when the calendar ends. -/
def emit (p : Progress σ) (r : Request) : Option (Progress σ) :=
  match p.stamper.settle clock settings.outputDir r.place with
  | (none, _) => none
  | (some path, s) =>
    let written := (r.at path).run writer p.state
    some { p with outcomes := p.outcomes ++ [written.1], stamper := s, state := written.2 }

/-- Name and write files in turn. -/
def emitAll (p : Progress σ) (rs : List Request) : Option (Progress σ) :=
  rs.foldlM (emit settings clock writer) p

/-- Take a definition: assemble its entity and emit its artifacts, or leave it out. -/
def take (p : Progress σ) (l : Loaded) : Option (Progress σ) :=
  match l.entity settings.policy with
  | .error f => some { p with failures := p.failures ++ [f] }
  | .ok e => (p.emitAll settings clock writer (Request.ofEntity settings e)).map fun q =>
      { q with entities := q.entities ++ [e] }

/-- What comes behind the last definition: migrations of associations and files of the batch. -/
def finish (p : Progress σ) : Option (Progress σ) :=
  p.emitAll settings clock writer
    (Request.deferred settings p.entities ++ Request.ofBatch settings p.entities)

/-- The report on a run that has come to its end. -/
def report (p : Progress σ) : Report := .of p.entities p.failures p.outcomes

variable {settings clock writer}

/-! ## Emitting in a row -/

/-- The progress with other entities and other definitions left out. -/
def relabel (p : Progress σ) (entities : List Entity) (failures : List EntityFailure) :
    Progress σ :=
  { p with entities, failures }

/-- Emitting looks neither at entities nor at definitions left out. -/
theorem emit_relabel (p : Progress σ) (es : List Entity) (fs : List EntityFailure) (r : Request) :
    (p.relabel es fs).emit settings clock writer r =
      (p.emit settings clock writer r).map (·.relabel es fs) := by
  simp only [emit, relabel]
  rcases p.stamper.settle clock settings.outputDir r.place with ⟨_ | path, s⟩ <;> rfl

theorem emitAll_relabel (p : Progress σ) (es : List Entity) (fs : List EntityFailure)
    (rs : List Request) :
    (p.relabel es fs).emitAll settings clock writer rs =
      (p.emitAll settings clock writer rs).map (·.relabel es fs) := by
  induction rs generalizing p with
  | nil => rfl
  | cons r rs ih =>
      simp only [emitAll, List.foldlM_cons, emit_relabel] at ih ⊢
      cases p.emit settings clock writer r with
      | none => rfl
      | some q => exact ih q

theorem emitAll_append (p : Progress σ) (rs qs : List Request) :
    p.emitAll settings clock writer (rs ++ qs) =
      (p.emitAll settings clock writer rs).bind fun q => q.emitAll settings clock writer qs := by
  rw [emitAll, List.foldlM_append]
  rfl

/-- The progress behind attempts that the stamper `s` is left after. -/
def attempted (writer : Writer σ) (p : Progress σ) (s : Stamper) (as : List Attempt) : Progress σ :=
  { p with
    outcomes := p.outcomes ++ (Attempt.runAll writer p.state as).1
    stamper := s
    state := (Attempt.runAll writer p.state as).2 }

theorem attempted_cons (p : Progress σ) (s s' : Stamper) (a : Attempt) (as : List Attempt) :
    (p.attempted writer s [a]).attempted writer s' as = p.attempted writer s' (a :: as) := by
  simp only [attempted, Attempt.runAll, List.append_assoc, List.singleton_append]

/-- Naming and writing in turn is the same as naming all files and writing them after that. -/
theorem emitAll_eq (p : Progress σ) (rs : List Request) :
    p.emitAll settings clock writer rs =
      (p.stamper.settleAll clock settings.outputDir (rs.map Request.place)).1.map fun paths =>
        p.attempted writer (p.stamper.settleAll clock settings.outputDir (rs.map Request.place)).2
          (rs.zipWith Request.at paths) := by
  induction rs generalizing p with
  | nil =>
      show some p = some { p with outcomes := p.outcomes ++ [] }
      rw [List.append_nil]
  | cons r rs ih =>
      rw [emitAll, List.foldlM_cons, List.map_cons, Stamper.settleAll, emit]
      rcases p.stamper.settle clock settings.outputDir r.place with ⟨_ | path, s⟩
      · rfl
      · -- behind the first request both sides go on from the same progress
        refine (ih (p.attempted writer s [r.at path])).trans ?_
        show (s.settleAll clock settings.outputDir (rs.map Request.place)).1.map _ =
          ((s.settleAll clock settings.outputDir (rs.map Request.place)).1.map (path :: ·)).map _
        rw [Option.map_map]
        refine congrArg (Option.map · _) (funext fun paths => ?_)
        exact attempted_cons p s _ (r.at path) (rs.zipWith Request.at paths)

theorem emitAll_keeps {p q : Progress σ} {rs : List Request}
    (h : p.emitAll settings clock writer rs = some q) :
    q.entities = p.entities ∧ q.failures = p.failures := by
  rw [emitAll_eq] at h
  obtain ⟨paths, -, rfl⟩ := Option.map_eq_some_iff.mp h
  exact ⟨rfl, rfl⟩

/-! ## Taking definitions in a row -/

/-- Taking a definition that cannot be loaded or assembled changes nothing else. -/
theorem take_error {p : Progress σ} {l : Loaded} {f : EntityFailure}
    (h : l.entity settings.policy = .error f) :
    p.take settings clock writer l = some (p.relabel p.entities (p.failures ++ [f])) := by
  rw [take, h]
  rfl

theorem take_ok {p : Progress σ} {l : Loaded} {e : Entity}
    (h : l.entity settings.policy = .ok e) :
    p.take settings clock writer l =
      (p.emitAll settings clock writer (Request.ofEntity settings e)).map fun q =>
        q.relabel (q.entities ++ [e]) q.failures := by
  rw [take, h]
  rfl

theorem takeAll_eq (p : Progress σ) (batch : List Loaded) :
    batch.foldlM (take settings clock writer) p =
      (p.emitAll settings clock writer
          ((assembled settings.policy batch).flatMap (Request.ofEntity settings))).map
        (·.relabel (p.entities ++ assembled settings.policy batch)
          (p.failures ++ leftOut settings.policy batch)) := by
  induction batch generalizing p with
  | nil =>
      show some p = some { p with entities := p.entities ++ [], failures := p.failures ++ [] }
      rw [List.append_nil, List.append_nil]
  | cons l batch ih =>
      rw [List.foldlM_cons]
      cases h : l.entity settings.policy with
      | error f =>
          rw [take_error h, assembled_cons_error batch h, leftOut_cons_error batch h]
          refine (ih _).trans ?_
          rw [emitAll_relabel, Option.map_map]
          simp [relabel, Function.comp_def]
      | ok e =>
          rw [take_ok h, assembled_cons_ok batch h, leftOut_cons_ok batch h, List.flatMap_cons,
            emitAll_append]
          -- the entity does not show in what is emitted for the entities behind it
          cases hq : p.emitAll settings clock writer (Request.ofEntity settings e) with
          | none => rfl
          | some q =>
              obtain ⟨hentities, hfailures⟩ := emitAll_keeps hq
              refine (ih _).trans ?_
              rw [emitAll_relabel, Option.map_map]
              simp [relabel, Function.comp_def, hentities, hfailures]

/-- The run of a batch as it can be watched. -/
def through (settings : Settings) (clock : Clock) (writer : Writer σ) (s : Stamper) (state : σ)
    (batch : List Loaded) : Option (Progress σ) :=
  (batch.foldlM (take settings clock writer) (start s state)).bind (finish settings clock writer)

/-- **Both ways come to the same.** A run that takes one definition at a time, and names and writes
    each file before the next, ends where the run in three strokes ends, or with it where the
    calendar does. -/
theorem through_eq_run (settings : Settings) (clock : Clock) (writer : Writer σ) (s : Stamper)
    (state : σ) (batch : List Loaded) :
    (through settings clock writer s state batch).map (fun p => (p.report, p.stamper, p.state)) =
      (run settings clock writer s state batch).1.map fun r =>
        (r, (run settings clock writer s state batch).2) := by
  have hthrough : through settings clock writer s state batch =
      ((start s state).emitAll settings clock writer
        (Request.all settings (assembled settings.policy batch))).map
          (·.relabel (assembled settings.policy batch) (leftOut settings.policy batch)) := by
    rw [through, takeAll_eq, Request.all_eq, Request.ofEntities, List.append_assoc, emitAll_append]
    cases (start s state).emitAll settings clock writer
        ((assembled settings.policy batch).flatMap (Request.ofEntity settings)) with
    | none => rfl
    | some q => exact emitAll_relabel q _ _ _
  rw [hthrough, emitAll_eq, Option.map_map, Option.map_map]
  cases hs : s.settleAll clock settings.outputDir
      ((Request.all settings (assembled settings.policy batch)).map Request.place) with
  | mk paths s' =>
      show Option.map _ (s.settleAll clock settings.outputDir _).1 = _
      cases paths with
      | none =>
          have hnone : attempts settings clock s batch = (none, s') := by rw [attempts, hs]; rfl
          rw [run_of_no_attempts hnone, hs]
          rfl
      | some paths =>
          have hsome : attempts settings clock s batch =
              (some ((Request.all settings (assembled settings.policy batch)).zipWith Request.at
                paths), s') := by
            rw [attempts, hs]
            rfl
          rw [run_of_attempts hsome, hs]
          show some (Report.of _ _ _, (s.settleAll clock settings.outputDir _).2, _) = _
          rw [hs]
          rfl

end Progress

end Scaffold
