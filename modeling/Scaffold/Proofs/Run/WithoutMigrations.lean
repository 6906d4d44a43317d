import Scaffold.Proofs.Run.LeftOut

/-!
# Runs without migrations

  Whether a run generates migrations is asked in two places, among the
  artifacts of each entity and behind all of them. Without migrations its
  requests are those with them, but for the migrations. What is left has fixed
  places. So nothing draws a stamp, every file goes where it went before, and
  as long as the outcome of a write depends on nothing but the file, the two
  runs tell the same of it.
-/

namespace Scaffold

/-- The settings, with migrations or without. -/
def Settings.migrating (settings : Settings) (on : Bool) : Settings :=
  { settings with generateMigrations := on }

/-- No migration is made from the template; shared files have none. -/
def Template.isOrdinary (t : Option Template) : Bool := !t.any Template.isMigration

/-! ## Requests -/

namespace Request

variable (settings : Settings)

theorem isOrdinary_iff (r : Request) :
    Template.isOrdinary r.template = true ↔ ¬ r.IsMigration := by
  rw [Template.isOrdinary, Bool.not_eq_true', ← Bool.not_eq_true, Option.any_eq_true]
  rfl

/-- Without migrations, an entity has the artifacts that are no migrations. -/
theorem ofEntity_migrating_false (e : Entity) :
    ofEntity (settings.migrating false) e =
      (ofEntity (settings.migrating true) e).filter (Template.isOrdinary ·.template) := by
  rw [ofEntity, ofEntity, plan, plan]
  cases e.storage with
  | sql => rfl
  | webservice => rfl

/-- The migrations of associations are migrations all of them. -/
theorem filter_deferred (es : List Entity) :
    (deferred settings es).filter (Template.isOrdinary ·.template) = [] := by
  rw [List.filter_eq_nil_iff]
  intro r hr
  obtain ⟨-, owner, -, -, a, -, rfl | rfl⟩ := mem_deferred settings hr <;> exact Bool.false_ne_true

theorem filter_ofBatch (es : List Entity) :
    (ofBatch settings es).filter (Template.isOrdinary ·.template) = ofBatch settings es := by
  rw [List.filter_eq_self]
  intro r hr
  exact (isOrdinary_iff r).mpr (ofBatch_place settings hr).1

/-- What draws a stamp is a migration. -/
theorem not_isOrdinary_of_stamped {es : List Entity} {r : Request} {d : String}
    (h : r ∈ all settings es) (hplace : r.place = .stamped d) :
    settings.generateMigrations = true ∧ Template.isOrdinary r.template = false := by
  rcases stamped_cases settings h hplace with ⟨e, -, rfl, hon, -⟩ | hdeferred
  · exact ⟨hon, rfl⟩
  · obtain ⟨hon, owner, -, -, a, -, rfl | rfl⟩ := mem_deferred settings hdeferred
    · exact ⟨hon, rfl⟩
    · exact ⟨hon, rfl⟩

/-- Without migrations, a run asks for all that is no migration, in the same order. -/
theorem all_migrating_false (es : List Entity) :
    all (settings.migrating false) es =
      (all (settings.migrating true) es).filter (Template.isOrdinary ·.template) := by
  have hentities : ofEntities (settings.migrating false) es =
      (ofEntities (settings.migrating true) es).filter (Template.isOrdinary ·.template) := by
    rw [ofEntities, ofEntities, List.filter_flatMap]
    exact List.flatMap_congr fun e _ => ofEntity_migrating_false settings e
  rw [all_eq, all_eq, List.filter_append, List.filter_append, filter_deferred, filter_ofBatch,
    ← hentities]
  rfl

end Request

/-! ## Paths -/

/-- Without what draws a stamp, the other requests are attempted where they were. -/
theorem Named.filter {outputDir : Path} {ts : List Moment} {rs : List Request}
    {as : List Attempt} (h : Named outputDir ts rs as) {keeps : Option Template → Bool}
    (hkeeps : ∀ r ∈ rs, ∀ d, r.place = .stamped d → keeps r.template = false) :
    Named outputDir [] (rs.filter (keeps ·.template)) (as.filter (keeps ·.template)) := by
  obtain ⟨us, -, hnamed⟩ := h.exists_filter keeps
  have hfixed : ∀ r ∈ rs.filter (keeps ·.template), ∀ d, r.place ≠ .stamped d := by
    intro r hr d hplace
    obtain ⟨hmem, hkept⟩ := List.mem_filter.mp hr
    rw [hkeeps r hmem d hplace] at hkept
    exact Bool.false_ne_true hkept
  rwa [hnamed.eq_nil_of_fixed hfixed] at hnamed

/-- Requests that draw no stamp are attempted in their places. -/
theorem exists_named_of_fixed {rs : List Request} (h : ∀ r ∈ rs, ∀ d, r.place ≠ .stamped d)
    (outputDir : Path) : ∃ as, Named outputDir [] rs as := by
  induction rs with
  | nil => exact ⟨[], .nil⟩
  | cons r rs ih =>
      obtain ⟨as, has⟩ := ih fun q hq => h q (List.mem_cons_of_mem r hq)
      cases hr : r.place with
      | fixed path => exact ⟨r.at path :: as, .fixed hr has⟩
      | stamped d => exact absurd hr (h r List.mem_cons_self d)

/-- Where no time is drawn, requests get their paths from every stamper, and it stays as it is. -/
theorem Named.settleAll {outputDir : Path} {rs : List Request} {as : List Attempt}
    (h : Named outputDir [] rs as) (clock : Clock) (s : Stamper) :
    ∃ paths, s.settleAll clock outputDir (rs.map Request.place) = (some paths, s) ∧
      rs.zipWith Request.at paths = as := by
  generalize hts : ([] : List Moment) = ts at h
  induction h with
  | nil => exact ⟨[], rfl, rfl⟩
  | @fixed ts r rs as path hr _ ih =>
      obtain ⟨paths, hpaths, has⟩ := ih hts
      refine ⟨path :: paths, ?_, ?_⟩
      · rw [List.map_cons, hr, Stamper.settleAll, Stamper.settle]
        dsimp only
        rw [hpaths]
        rfl
      · rw [List.zipWith_cons_cons, has]
  | stamped _ _ _ => cases hts

/-- Requests that have their paths without a stamp make the attempts of a run for every clock. -/
theorem attempts_of_named {settings : Settings} {batch : List Loaded} {as : List Attempt}
    (h : Named settings.outputDir [] (requestsOf settings batch) as) (clock : Clock)
    (s : Stamper) : attempts settings clock s batch = (some as, s) := by
  obtain ⟨paths, hpaths, has⟩ := h.settleAll clock s
  rw [requestsOf] at hpaths has
  rw [attempts, hpaths, ← has]
  rfl

/-! ## Runs -/

/-- What comes of an attempt where the answer to a write depends on nothing but the file. -/
def Attempt.outcome (answer : Path → String → Except Files.Fault Unit) (a : Attempt) : Outcome :=
  ⟨a.template, a.path,
    a.content.bind fun text => (answer a.path text).mapError (.write a.path.text)⟩

theorem Attempt.runAll_of_answer {σ : Type} {writer : Writer σ}
    {answer : Path → String → Except Files.Fault Unit}
    (h : ∀ s path text, (writer s path text).1 = answer path text) (state : σ)
    (as : List Attempt) : (runAll writer state as).1 = as.map (outcome answer) := by
  induction as generalizing state with
  | nil => rfl
  | cons a as ih =>
      have hresult : a.resultIn writer state =
          a.content.bind fun text => (answer a.path text).mapError (.write a.path.text) := by
        rw [resultIn]
        simp only [h]
      rw [runAll, run_eq, List.map_cons, hresult]
      show _ :: (runAll writer _ as).1 = _
      rw [ih]
      rfl

/-- The failures of some outcomes are those of the outcomes with such templates. -/
theorem Outcome.filter_failures (keeps : Option Template → Bool) (os : List Outcome) :
    (os.filter (keeps ·.template)).filterMap failure? =
      (os.filterMap failure?).filter (keeps ·.template) := by
  rw [List.filterMap_filter, List.filter_filterMap]
  refine List.filterMap_congr fun o _ => ?_
  rw [failure?]
  cases o.result with
  | ok u =>
      rw [ite_self]
      rfl
  | error f => rfl

/-- What a run without migrations reports, against the run with them, where the answer to a write
    depends on nothing but the file. -/
structure SameButMigrations (answer : Path → String → Except Files.Fault Unit)
    (as : List Attempt) (r r' : Report) : Prop where
  entities : r'.entities = r.entities
  entityFailures : r'.entityFailures = r.entityFailures
  written : r.written = (as.map (Attempt.outcome answer)).filterMap Outcome.written?
  /-- What has been written is the same, but for the migrations. -/
  written_rest : r'.written =
    ((as.map (Attempt.outcome answer)).filter (Template.isOrdinary ·.template)).filterMap
      Outcome.written?
  artifactFailures :
    r'.artifactFailures = r.artifactFailures.filter (Template.isOrdinary ·.template)

/-- **Without migrations, nothing else is missing.** A run without migrations never reads the
    clock. It attempts the files that the run with migrations attempts, at the same paths, with
    the same texts and in the same order, but for the migrations; and if the answer to a write
    depends on nothing but the file, it reports the same of them. -/
theorem without_migrations (settings : Settings) (batch : List Loaded) :
    (∃ as, ∀ (clock : Clock) (s : Stamper),
      attempts (settings.migrating false) clock s batch = (some as, s)) ∧
    ∀ (clock : Clock) (s : Stamper), s.Lasts clock (stampsOf (settings.migrating true) batch) →
      ∃ as s', attempts (settings.migrating true) clock s batch = (some as, s') ∧
        (∀ (clock' : Clock) (t : Stamper), attempts (settings.migrating false) clock' t batch =
          (some (as.filter (Template.isOrdinary ·.template)), t)) ∧
        ∀ (σ : Type) (writer : Writer σ) (answer : Path → String → Except Files.Fault Unit),
          (∀ t path text, (writer t path text).1 = answer path text) → ∀ state : σ,
            ∃ r r' state' state'', SameButMigrations answer as r r' ∧
              run (settings.migrating true) clock writer s state batch = (some r, s', state') ∧
              ∀ (clock' : Clock) (t : Stamper),
                run (settings.migrating false) clock' writer t state batch =
                  (some r', t, state'') := by
  constructor
  · have hfixed : ∀ r ∈ requestsOf (settings.migrating false) batch, ∀ d, r.place ≠ .stamped d := by
      intro r hr d hplace
      exact nomatch (Request.not_isOrdinary_of_stamped _ hr hplace).1
    obtain ⟨as, has⟩ := exists_named_of_fixed hfixed (settings.migrating false).outputDir
    exact ⟨as, attempts_of_named has⟩
  · intro clock s hlasts
    obtain ⟨as, s', has⟩ := attempts_of_lasts hlasts
    obtain ⟨ts, -, hnamed⟩ := attempts_eq_some (congrArg Prod.fst has)
    have hrest : Named (settings.migrating false).outputDir []
        (requestsOf (settings.migrating false) batch)
        (as.filter (Template.isOrdinary ·.template)) := by
      rw [requestsOf, Request.all_migrating_false]
      exact hnamed.filter fun r hr d hplace =>
        (Request.not_isOrdinary_of_stamped _ hr hplace).2
    have hoff := attempts_of_named hrest
    refine ⟨as, s', has, hoff, fun σ writer answer hanswer state => ?_⟩
    refine ⟨_, _, _, _, ?_, run_of_attempts has writer state,
      fun clock' t => run_of_attempts (hoff clock' t) writer state⟩
    have hfilter : (as.filter (Template.isOrdinary ·.template)).map (Attempt.outcome answer) =
        (as.map (Attempt.outcome answer)).filter (Template.isOrdinary ·.template) := by
      rw [List.filter_map]
      rfl
    rw [Attempt.runAll_of_answer hanswer, Attempt.runAll_of_answer hanswer, hfilter]
    exact ⟨rfl, rfl, rfl, rfl, Outcome.filter_failures _ _⟩

/-- The answer of a disk that refuses paths of an even length. -/
def evenRefused (path : Path) (_ : String) : Except Files.Fault Unit :=
  if path.text.length % 2 = 0 then .error (.other "disk full") else .ok ()

/-- The writer of such a disk. -/
def Writer.evenRefused : Writer Unit := fun _ path text => (Scaffold.evenRefused path text, ())

/-- With migrations six files are written and seven fail; one and three of them are migrations. -/
theorem without_migrations_sample :
    Stamper.new.Lasts frozenClock (stampsOf (Settings.migrating {} true) sampleBatch) ∧
    ∃ as s' r r', attempts (Settings.migrating {} true) frozenClock Stamper.new sampleBatch =
        (some as, s') ∧
      SameButMigrations evenRefused as r r' ∧
      (r.written.length, r.artifactFailures.length) = (6, 7) ∧
      (r'.written.length, r'.artifactFailures.length) = (5, 4) ∧
      ∀ (clock : Clock) (t : Stamper),
        run (Settings.migrating {} false) clock Writer.evenRefused t () sampleBatch =
          (some r', t, ()) := by
  obtain ⟨as, s', has, -, hruns⟩ :=
    (without_migrations {} sampleBatch).2 frozenClock Stamper.new lasts_sampleBatch
  obtain ⟨r, r', _, _, hsame, hon, hoff⟩ :=
    hruns Unit Writer.evenRefused evenRefused (fun _ _ _ => rfl) ()
  have hlengths : (run (Settings.migrating {} true) frozenClock Writer.evenRefused Stamper.new ()
      sampleBatch).1.map (fun r => (r.written.length, r.artifactFailures.length)) =
        some (6, 7) := by decide +kernel
  have hlengths' : (run (Settings.migrating {} false) frozenClock Writer.evenRefused Stamper.new ()
      sampleBatch).1.map (fun r => (r.written.length, r.artifactFailures.length)) =
        some (5, 4) := by decide +kernel
  rw [hon] at hlengths
  rw [hoff] at hlengths'
  exact ⟨lasts_sampleBatch, as, s', r, r', has, hsame, Option.some.inj hlengths,
    Option.some.inj hlengths', hoff⟩

end Scaffold
