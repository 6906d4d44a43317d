import Scaffold.Proofs.Artifact.Columns
import Scaffold.Proofs.Association.Refusal
import Scaffold.Proofs.Run.LeftOut
import Scaffold.Run.Workspace

/-!
# What can fail in a run

  A text fails to be rendered for one cause only, an attribute of a type that no
  column has, and only models and tables have columns. All other templates have
  a text for whatever a run gives them, and a run gives every template data of
  its own kind. So a failure in the report of a run is a type without a column,
  named as it is declared, or it is one of the writer, in the state in which the
  files before have left it.
-/

namespace Scaffold

open Stamper

/-! ## Attributes -/

/-- The primitive types that have a column. -/
def ColumnType.primitives : List String :=
  ["String", "Int", "Float", "Boolean", "Date", "DateTime", "Time", "Json"]

theorem ColumnType.ofPrimitive?_eq_none_iff {primitive : String} :
    ofPrimitive? primitive = none ↔ primitive ∉ primitives := by
  have hnames : primitives = ofPrimitives.map Prod.fst := rfl
  rw [ofPrimitive?, List.lookup_eq_none_iff, hnames, List.mem_map]
  constructor
  · rintro hnone ⟨p, hp, rfl⟩
    exact bne_iff_ne.mp (hnone p hp) rfl
  · intro hnot p hp
    exact bne_iff_ne.mpr fun heq => hnot ⟨p, hp, heq.symm⟩

/-- The first of the attributes whose types have no column is of this type. -/
def FirstUnknown (attributes : List (String × String)) (primitive : String) : Prop :=
  ∃ before name after, attributes = before ++ (name, primitive) :: after ∧
    (∀ a ∈ before, a.2 ∈ ColumnType.primitives) ∧ primitive ∉ ColumnType.primitives

/-- A text that is made from attributes fails exactly if a type of theirs has no column, and then
    for the first of these types. -/
structure FailsFor (attributes : List (String × String)) (content : Except Failure String) :
    Prop where
  fails_iff : (∃ f, content = .error f) ↔ ∃ a ∈ attributes, a.2 ∉ ColumnType.primitives
  first : ∀ f, content = .error f ↔
    ∃ primitive, FirstUnknown attributes primitive ∧ f = .unsupportedType primitive

namespace Column

theorem ofAttribute_eq_error_iff {a : String × String} {f : Failure} :
    ofAttribute a = .error f ↔ a.2 ∉ ColumnType.primitives ∧ f = .unsupportedType a.2 := by
  rw [ofAttribute_eq, typed?, ← ColumnType.ofPrimitive?_eq_none_iff]
  cases ColumnType.ofPrimitive? a.2 with
  | none => simp [eq_comm]
  | some type => simp

theorem exists_ofAttribute_iff {a : String × String} :
    (∃ c, ofAttribute a = .ok c) ↔ a.2 ∈ ColumnType.primitives := by
  rw [ofAttribute_eq, typed?]
  by_cases hknown : a.2 ∈ ColumnType.primitives
  · obtain ⟨type, htype⟩ := Option.ne_none_iff_exists'.mp
      (mt ColumnType.ofPrimitive?_eq_none_iff.mp (not_not_intro hknown))
    simp [htype, hknown]
  · simp [ColumnType.ofPrimitive?_eq_none_iff.mpr hknown, hknown]

theorem ofAttributes_eq_error_iff {attributes : List (String × String)} {f : Failure} :
    ofAttributes attributes = .error f ↔
      ∃ primitive, FirstUnknown attributes primitive ∧ f = .unsupportedType primitive := by
  rw [ofAttributes, mapM_eq_error_iff]
  simp only [exists_ofAttribute_iff, ofAttribute_eq_error_iff, FirstUnknown]
  constructor
  · rintro ⟨before, ⟨name, primitive⟩, after, hsplit, hbefore, hunknown, hf⟩
    exact ⟨primitive, ⟨before, name, after, hsplit, hbefore, hunknown⟩, hf⟩
  · rintro ⟨primitive, ⟨before, name, after, hsplit, hbefore, hunknown⟩, hf⟩
    exact ⟨before, (name, primitive), after, hsplit, hbefore, hunknown, hf⟩

theorem exists_error_iff {attributes : List (String × String)} :
    (∃ f, ofAttributes attributes = .error f) ↔ ∃ a ∈ attributes, a.2 ∉ ColumnType.primitives := by
  constructor
  · rintro ⟨f, hf⟩
    obtain ⟨primitive, ⟨before, name, after, rfl, -, hunknown⟩, -⟩ :=
      ofAttributes_eq_error_iff.mp hf
    exact ⟨(name, primitive), List.mem_append_right before List.mem_cons_self, hunknown⟩
  · rintro ⟨a, ha, hunknown⟩
    cases hc : ofAttributes attributes with
    | error f => exact ⟨f, rfl⟩
    | ok columns =>
        have hknown := exists_ofAttribute_iff.mp (forall_of_mapM_eq_ok hc a ha)
        exact absurd hknown hunknown

end Column

/-- A text fails as the attributes do if it is made from nothing else that fails. -/
theorem failsFor_of_columns {attributes : List (String × String)} {α : Type}
    (build : List Column → α) (text : α → String) :
    FailsFor attributes
      (((Column.ofAttributes attributes).bind fun columns => .ok (build columns)).map text) := by
  have herror : ∀ f, (((Column.ofAttributes attributes).bind fun columns =>
      Except.ok (build columns)).map text) = .error f ↔
        Column.ofAttributes attributes = .error f := by
    intro f
    cases Column.ofAttributes attributes <;> simp [Except.bind, Except.map]
  refine ⟨?_, fun f => (herror f).trans Column.ofAttributes_eq_error_iff⟩
  simp only [herror]
  exact Column.exists_error_iff

theorem failsFor_model (e : Entity) :
    FailsFor e.attributes.entries (Template.model.render (.entity e)) :=
  failsFor_of_columns _ Model.text

theorem failsFor_migration (e : Entity) :
    FailsFor e.attributes.others (Template.migration.render (.entity e)) :=
  failsFor_of_columns _ Migration.text

/-! ## Texts -/

/-- Templates whose texts have the columns of an entity. -/
def Template.hasColumns : Template → Bool
  | model | migration => true
  | _ => false

/-- The templates of an entity's artifacts, in order. -/
def Entity.templates (settings : Settings) (e : Entity) : List Template :=
  match e.storage with
  | .sql => [.schema, .resolvers, .model] ++
      if settings.generateMigrations then [.migration] else []
  | .webservice => [.schema, .webserviceModel, .webserviceResolvers]

/-- The attempts at the artifacts of an entity. Its model fails for its attributes, and the creation
    of its table for those other than the identifier. -/
structure EntityAttempts (settings : Settings) (e : Entity) (as : List Attempt) : Prop where
  templates : as.map Attempt.template = (e.templates settings).map some
  model : ∀ a ∈ as, a.template = some .model → FailsFor e.attributes.entries a.content
  migration : ∀ a ∈ as, a.template = some .migration → FailsFor e.attributes.others a.content

/-- Which of the attempts of a run on these entities have no text. -/
structure Renders (settings : Settings) (es : List Entity) (as : List Attempt) : Prop where
  /-- The attempts at models and tables stand among the artifacts of the entities. -/
  entities : ∃ groups rest, as = groups.flatten ++ rest ∧
    List.Forall₂ (EntityAttempts settings) es groups ∧
    ∀ a ∈ rest, a.template.any Template.hasColumns = false
  /-- All other attempts have a text. -/
  others : ∀ a ∈ as, a.template.any Template.hasColumns = false → ∃ text, a.content = .ok text

namespace Request

variable (settings : Settings) {es : List Entity} {e : Entity} {r : Request}

theorem content_of_mem_ofEntity (h : r ∈ ofEntity settings e) {t : Template}
    (ht : r.template = some t) : r.content = t.render (.entity e) := by
  obtain ⟨p, -, rfl⟩ := List.mem_map.mp h
  cases ht
  rfl

/-- Among the artifacts of an entity, all but its model and its table have a text. -/
theorem exists_text_of_mem_ofEntity (h : r ∈ ofEntity settings e)
    (hcolumns : r.template.any Template.hasColumns = false) : ∃ text, r.content = .ok text := by
  obtain ⟨⟨template, place⟩, hp, rfl⟩ := List.mem_map.mp h
  rw [mem_plan_iff] at hp
  cases hs : e.storage with
  | sql =>
      rw [hs] at hp
      rcases hp with hp | hp | hp | ⟨-, hp⟩ <;> cases hp
      · exact ⟨_, rfl⟩
      · exact ⟨_, rfl⟩
      · exact absurd hcolumns.symm Bool.false_ne_true
      · exact absurd hcolumns.symm Bool.false_ne_true
  | webservice =>
      rw [hs] at hp
      rcases hp with hp | hp | hp <;> cases hp <;> exact ⟨_, rfl⟩

/-- Behind the artifacts of the entities, everything has a text. -/
theorem exists_text_of_mem_rest (h : r ∈ deferred settings es ++ ofBatch settings es) :
    r.template.any Template.hasColumns = false ∧ ∃ text, r.content = .ok text := by
  rcases List.mem_append.mp h with h | h
  · obtain ⟨-, owner, -, -, a, -, rfl | rfl⟩ := mem_deferred settings h
    · exact ⟨rfl, _, rfl⟩
    · exact ⟨rfl, _, rfl⟩
  · simp only [ofBatch, List.mem_cons, List.not_mem_nil, or_false] at h
    rcases h with rfl | rfl | rfl <;> exact ⟨rfl, _, rfl⟩

/-- Among the artifacts of an entity, a text fails for nothing but a type that no column has. -/
theorem unsupported_of_mem_ofEntity (h : r ∈ ofEntity settings e) {f : Failure}
    (hf : r.content = .error f) : ∃ primitive, f = .unsupportedType primitive := by
  cases hcolumns : r.template.any Template.hasColumns with
  | false =>
      obtain ⟨text, htext⟩ := exists_text_of_mem_ofEntity settings h hcolumns
      exact nomatch hf.symm.trans htext
  | true =>
      obtain ⟨t, ht, hcolumn⟩ := (Option.any_eq_true _ _).mp hcolumns
      rw [content_of_mem_ofEntity settings h ht] at hf
      cases t with
      | model =>
          obtain ⟨primitive, -, hprimitive⟩ := ((failsFor_model e).first f).mp hf
          exact ⟨primitive, hprimitive⟩
      | migration =>
          obtain ⟨primitive, -, hprimitive⟩ := ((failsFor_migration e).first f).mp hf
          exact ⟨primitive, hprimitive⟩
      | _ => exact absurd hcolumn Bool.false_ne_true

theorem unsupported_of_mem_all (h : r ∈ all settings es) {f : Failure}
    (hf : r.content = .error f) : ∃ primitive, f = .unsupportedType primitive := by
  rw [all_eq, List.append_assoc] at h
  rcases List.mem_append.mp h with h | h
  · obtain ⟨e, -, he⟩ := List.mem_flatMap.mp h
    exact unsupported_of_mem_ofEntity settings he hf
  · obtain ⟨text, htext⟩ := (exists_text_of_mem_rest settings h).2
    exact nomatch hf.symm.trans htext

theorem map_template_ofEntity :
    (ofEntity settings e).map Request.template = (e.templates settings).map some := by
  rw [ofEntity, plan, Entity.templates]
  cases e.storage with
  | sql => cases settings.generateMigrations <;> rfl
  | webservice => rfl

end Request

namespace Named

variable {outputDir : Path} {settings : Settings} {ts : List Moment} {rs : List Request}
  {as : List Attempt}

theorem map_template (h : Named outputDir ts rs as) :
    as.map Attempt.template = rs.map Request.template := by
  induction h with
  | nil => rfl
  | fixed _ _ ih => exact congrArg (_ :: ·) ih
  | stamped _ _ ih => exact congrArg (_ :: ·) ih

/-- Attempts for the requests of many things fall into groups, one for each of them. -/
theorem exists_groups {α : Type} {xs : List α} {requests : α → List Request}
    (h : Named outputDir ts (xs.flatMap requests) as) :
    ∃ groups, as = groups.flatten ∧
      List.Forall₂ (fun x bs => ∃ us, Named outputDir us (requests x) bs) xs groups := by
  induction xs generalizing ts as with
  | nil =>
      cases h
      exact ⟨[], rfl, .nil⟩
  | cons x xs ih =>
      rw [List.flatMap_cons] at h
      obtain ⟨us, us', bs, cs, rfl, hbs, hcs⟩ := h.split
      obtain ⟨groups, rfl, hgroups⟩ := ih hcs
      exact ⟨bs :: groups, rfl, .cons ⟨us, hbs⟩ hgroups⟩

theorem entityAttempts {e : Entity} (h : Named outputDir ts (Request.ofEntity settings e) as) :
    EntityAttempts settings e as := by
  have hcontent : ∀ a ∈ as, ∀ t, a.template = some t → a.content = t.render (.entity e) := by
    intro a ha t ht
    obtain ⟨r, hr, hat, -⟩ := h.exists_request ha
    rw [hat] at ht ⊢
    exact Request.content_of_mem_ofEntity settings hr ht
  refine ⟨h.map_template.trans (Request.map_template_ofEntity settings), fun a ha ht => ?_,
    fun a ha ht => ?_⟩
  · rw [hcontent a ha _ ht]
    exact failsFor_model e
  · rw [hcontent a ha _ ht]
    exact failsFor_migration e

theorem renders {es : List Entity}
    (h : Named settings.outputDir ts (Request.all settings es) as) : Renders settings es as := by
  have hothers : ∀ a ∈ as, a.template.any Template.hasColumns = false →
      ∃ text, a.content = .ok text := by
    intro a ha hcolumns
    obtain ⟨r, hr, hat, -⟩ := h.exists_request ha
    rw [hat] at hcolumns ⊢
    rw [Request.all_eq, List.append_assoc] at hr
    rcases List.mem_append.mp hr with hr | hr
    · obtain ⟨e, -, hre⟩ := List.mem_flatMap.mp hr
      exact Request.exists_text_of_mem_ofEntity settings hre hcolumns
    · exact (Request.exists_text_of_mem_rest settings hr).2
  rw [Request.all_eq, List.append_assoc] at h
  obtain ⟨us, us', bs, rest, rfl, hbs, hrest⟩ := h.split
  obtain ⟨groups, rfl, hgroups⟩ := hbs.exists_groups
  refine ⟨⟨groups, rest, rfl, hgroups.imp fun e bs ⟨_, hnamed⟩ => hnamed.entityAttempts,
    fun a ha => ?_⟩, hothers⟩
  obtain ⟨r, hr, hat, -⟩ := hrest.exists_request ha
  rw [hat]
  exact (Request.exists_text_of_mem_rest settings hr).1

end Named

/-! ## Failures of attempts -/

namespace Attempt

variable {σ : Type} {writer : Writer σ}

/-- The failure of an attempt for a writer in that state. -/
inductive FailsAs (writer : Writer σ) (state : σ) (a : Attempt) : Failure → Prop where
  /-- There is no text, for a type that no column has. -/
  | unrendered {primitive : String} : a.content = .error (.unsupportedType primitive) →
      FailsAs writer state a (.unsupportedType primitive)
  /-- The writer refuses the text. -/
  | unwritten {text : String} {fault : Files.Fault} : a.content = .ok text →
      (writer state a.path text).1 = .error fault →
      FailsAs writer state a (.write a.path.text fault)

theorem resultIn_eq_error_iff {state : σ} {a : Attempt} {f : Failure}
    (hunsupported : ∀ f, a.content = .error f → ∃ primitive, f = .unsupportedType primitive) :
    a.resultIn writer state = .error f ↔ a.FailsAs writer state f := by
  rw [resultIn]
  constructor
  · intro h
    cases hc : a.content with
    | error g =>
        obtain ⟨primitive, rfl⟩ := hunsupported g hc
        rw [hc] at h
        cases h
        exact .unrendered hc
    | ok text =>
        rw [hc] at h
        have hwrite : (writer state a.path text).1.mapError (.write a.path.text) = .error f := h
        cases hw : (writer state a.path text).1 with
        | error fault =>
            rw [hw] at hwrite
            cases hwrite
            exact .unwritten hc hw
        | ok u =>
            rw [hw] at hwrite
            cases hwrite
  · intro h
    cases h with
    | unrendered hc => rw [hc]; rfl
    | unwritten hc hw =>
        rw [hc]
        show (writer state a.path _).1.mapError _ = _
        rw [hw]
        rfl

/-- The failures among the outcomes are those of the attempts, each for the state in which the
    files before have left the writer. -/
theorem mem_failures_iff {state : σ} {as : List Attempt} {f : ArtifactFailure} :
    f ∈ (runAll writer state as).1.filterMap Outcome.failure? ↔
      ∃ before a after, as = before ++ a :: after ∧ f.path = a.path ∧ f.template = a.template ∧
        a.resultIn writer (writer.behind state (before.filterMap file?)) = .error f.failure := by
  induction as generalizing state with
  | nil =>
      constructor
      · exact nofun
      · rintro ⟨before, a, after, has, -⟩
        exact nomatch List.append_eq_nil_iff.mp has.symm
  | cons a as ih =>
      have hhead : ∀ g, (Outcome.mk a.template a.path (a.resultIn writer state)).failure? = some g ↔
          g.path = a.path ∧ g.template = a.template ∧
            a.resultIn writer state = .error g.failure := by
        rintro ⟨path, template, failure⟩
        rw [Outcome.failure?]
        cases a.resultIn writer state with
        | ok u => simp
        | error f' => simp [eq_comm]
      rw [runAll, run_eq]
      simp only [List.mem_filterMap, List.mem_cons] at ih ⊢
      constructor
      · rintro ⟨o, rfl | ho, hof⟩
        · exact ⟨[], a, as, rfl, (hhead f).mp hof⟩
        · obtain ⟨before, b, after, rfl, hb⟩ := ih.mp ⟨o, ho, hof⟩
          refine ⟨a :: before, b, after, rfl, ?_⟩
          rw [behind_cons]
          exact hb
      · rintro ⟨before, b, after, has, hb⟩
        cases before with
        | nil =>
            obtain ⟨rfl, -⟩ := List.cons.inj has
            exact ⟨_, Or.inl rfl, (hhead f).mpr hb⟩
        | cons c before =>
            obtain ⟨rfl, hrest⟩ := List.cons.inj has
            rw [behind_cons] at hb
            obtain ⟨o, ho, hof⟩ := ih.mpr ⟨before, b, after, hrest, hb⟩
            exact ⟨o, Or.inr ho, hof⟩

end Attempt

/-! ## Definitions -/

/-- No entity fails to be assembled for a template. -/
theorem Entity.ofDefinition_ne_mismatchedContext (policy : Policy) (d : Definition) (t : Template) :
    ofDefinition policy d ≠ .error (.mismatchedContext t) := by
  intro h
  cases hc : Classification.of d.storage policy d.associations with
  | ok c =>
      rw [ofDefinition, hc] at h
      exact nomatch h
  | error f =>
      rw [ofDefinition, hc] at h
      obtain rfl : f = .mismatchedContext t := Except.error.inj h
      obtain ⟨-, _, s, -, -, -, hrefused⟩ := Classification.of_eq_error_iff.mp hc
      exact nomatch hrefused

theorem mismatched_of_mem_leftOut {policy : Policy} {batch : List Loaded} {f : EntityFailure}
    {t : Template} (h : f ∈ leftOut policy batch) (hf : f.failure = .mismatchedContext t) :
    ∃ l ∈ batch, l.definition = .error (.mismatchedContext t) := by
  obtain ⟨l, hl, hfl⟩ := List.mem_filterMap.mp h
  refine ⟨l, hl, ?_⟩
  have hentity : l.entity policy = .error f := by
    cases hentity : l.entity policy with
    | ok e =>
        rw [hentity] at hfl
        exact nomatch hfl
    | error g =>
        rw [hentity] at hfl
        rw [Option.some.inj hfl]
  rcases (Loaded.failsWith_of_entity hentity).2 with hload | ⟨d, -, hd⟩
  · rw [hload, hf]
  · rw [hf] at hd
    exact absurd hd (Entity.ofDefinition_ne_mismatchedContext policy d t)

theorem Loaded.ofBytes_ne_mismatchedContext (path : Path) (bytes : Except Files.Fault ByteArray)
    (t : Template) : (ofBytes path bytes).definition ≠ .error (.mismatchedContext t) := by
  rw [ofBytes]
  cases bytes.bind Files.Tree.textOf with
  | error f => exact nofun
  | ok text =>
      show Definition.parseFrom path.text text ≠ _
      rw [Definition.parseFrom]
      cases Definition.parse text with
      | ok d => exact nofun
      | error e => cases e <;> exact nofun

/-- A directory has its definitions unless it cannot be read. -/
theorem Settings.batch_eq_error {settings : Settings} {files : Files.Tree} {f : Failure}
    (h : settings.batch files = .error f) : ∃ fault, f = .files fault := by
  rw [batch, Definition.loadAll] at h
  cases hlist : files.list settings.modelsDir with
  | error fault =>
      rw [hlist] at h
      exact ⟨fault, (Except.error.inj h).symm⟩
  | ok names =>
      rw [hlist] at h
      exact nomatch h

/-- No definition in a directory fails for a template. -/
theorem Settings.definition_ne_mismatchedContext {settings : Settings} {files : Files.Tree}
    {batch : List Loaded} (h : settings.batch files = .ok batch) {l : Loaded} (hl : l ∈ batch)
    (t : Template) : l.definition ≠ .error (.mismatchedContext t) := by
  obtain ⟨loaded, hloaded, hbatch⟩ := bind_eq_ok_iff.mp h
  cases hbatch
  have hmem := (List.mem_filter.mp hl).1
  rw [Definition.loadAll] at hloaded
  cases hlist : files.list settings.modelsDir with
  | error f =>
      rw [hlist] at hloaded
      exact nomatch hloaded
  | ok names =>
      rw [hlist] at hloaded
      cases hloaded
      obtain ⟨p, -, rfl⟩ := List.mem_map.mp hmem
      exact Loaded.ofBytes_ne_mismatchedContext p _ t

/-! ## Runs -/

/-- What fails in a run with one writer and state, when its attempts are `as`. -/
structure RunFailures {σ : Type} (settings : Settings) (clock : Clock) (s : Stamper)
    (batch : List Loaded) (as : List Attempt) (s' : Stamper) (writer : Writer σ) (state state' : σ)
    (r : Report) : Prop where
  renders : Renders settings (assembled settings.policy batch) as
  /-- The failures are those of the attempts, each for a writer in the state in which the files
      before have left it. -/
  artifacts : ∀ f, f ∈ r.artifactFailures ↔
    ∃ before a after, as = before ++ a :: after ∧ f.path = a.path ∧ f.template = a.template ∧
      a.FailsAs writer (writer.behind state (before.filterMap Attempt.file?)) f.failure
  /-- The writer is handed the files of the attempts that have a text, and nothing else. -/
  log : run settings clock writer.logged s (state, []) batch =
    (some r, s', state', as.filterMap Attempt.file?)
  artifacts_matched : ∀ f ∈ r.artifactFailures, ∀ t, f.failure ≠ .mismatchedContext t
  /-- A definition left out for a template has come with this failure. -/
  entities_matched : ∀ f ∈ r.entityFailures, ∀ t, f.failure = .mismatchedContext t →
    ∃ l ∈ batch, l.definition = .error (.mismatchedContext t)

theorem exists_runFailures {σ : Type} {settings : Settings} {clock : Clock} {writer : Writer σ}
    {s s' : Stamper} {state state' : σ} {batch : List Loaded} {r : Report}
    (h : run settings clock writer s state batch = (some r, s', state')) :
    ∃ as, attempts settings clock s batch = (some as, s') ∧
      RunFailures settings clock s batch as s' writer state state' r := by
  obtain ⟨as, has, rfl, rfl⟩ := exists_attempts_of_run h
  obtain ⟨ts, -, hnamed⟩ := attempts_eq_some (congrArg Prod.fst has)
  have hartifacts : ∀ f, f ∈ (Attempt.runAll writer state as).1.filterMap Outcome.failure? ↔
      ∃ before a after, as = before ++ a :: after ∧ f.path = a.path ∧ f.template = a.template ∧
        a.FailsAs writer (writer.behind state (before.filterMap Attempt.file?)) f.failure := by
    intro f
    rw [Attempt.mem_failures_iff]
    refine exists_congr fun before => exists_congr fun a => exists_congr fun after =>
      and_congr_right fun hsplit => and_congr_right fun _ => and_congr_right fun _ => ?_
    refine Attempt.resultIn_eq_error_iff fun g hg => ?_
    obtain ⟨q, hq, hat, -⟩ :=
      hnamed.exists_request (hsplit ▸ List.mem_append_right before List.mem_cons_self)
    rw [hat] at hg
    exact Request.unsupported_of_mem_all settings hq hg
  refine ⟨as, has, hnamed.renders, hartifacts, ?_, fun f hf t hmismatched => ?_,
    fun f hf t => mismatched_of_mem_leftOut hf⟩
  · rw [run_of_attempts has, Attempt.runAll_logged]
  · obtain ⟨before, a, after, -, -, -, hfails⟩ := (hartifacts f).mp hf
    rw [hmismatched] at hfails
    exact nomatch hfails

/-- No run in a workspace has to do with a failure for a template. -/
theorem generate_matched (effect : Command.Effect) (clock : Clock) (settings : Settings)
    (w : Workspace) (t : Template) :
    (generate effect clock settings w).1 ≠ .error (.mismatchedContext t) ∧
      ∀ r, (generate effect clock settings w).1 = .ok r →
        (∀ f ∈ r.entityFailures, f.failure ≠ .mismatchedContext t) ∧
        ∀ f ∈ r.artifactFailures, f.failure ≠ .mismatchedContext t := by
  cases hbatch : settings.batch w.files with
  | error f =>
      obtain ⟨fault, rfl⟩ := Settings.batch_eq_error hbatch
      rw [generate, hbatch]
      exact ⟨nofun, nofun⟩
  | ok batch =>
      cases hrun : run settings clock (settings.writer effect) Stamper.new w batch with
      | mk answer rest =>
          rw [generate, hbatch]
          dsimp only
          rw [hrun]
          cases answer with
          | none => exact ⟨nofun, nofun⟩
          | some r =>
              obtain ⟨as, -, hfailures⟩ := exists_runFailures hrun
              refine ⟨nofun, fun r' hr' => ?_⟩
              cases hr'
              refine ⟨fun f hf hmismatched => ?_, fun f hf => hfailures.artifacts_matched f hf t⟩
              obtain ⟨l, hl, hdefinition⟩ := hfailures.entities_matched f hf t hmismatched
              exact Settings.definition_ne_mismatchedContext hbatch hl t hdefinition

/-- **What can fail in a run**, which comes to its end as long as the calendar lasts: a file fails
    because its writer refuses the text or because there is no text, and there is no text only for
    the model of an entity with an attribute of an unknown type and for the creation of its table,
    where the identifier does not count. The failure names the first such type, and the writer is
    handed nothing. That a template is given data of another one is no failure of any run, nor of
    one in a workspace. -/
theorem failures_of_run (settings : Settings) (clock : Clock) :
    (∀ (σ : Type) (writer : Writer σ) (s : Stamper) (state : σ) (batch : List Loaded),
      s.Lasts clock (stampsOf settings batch) →
        ∃ r s' state', run settings clock writer s state batch = (some r, s', state')) ∧
    (∀ (σ : Type) (writer : Writer σ) (s s' : Stamper) (state state' : σ) (batch : List Loaded)
      (r : Report), run settings clock writer s state batch = (some r, s', state') →
        ∃ as, attempts settings clock s batch = (some as, s') ∧
          RunFailures settings clock s batch as s' writer state state' r) ∧
    ∀ (effect : Command.Effect) (w : Workspace) (t : Template),
      (generate effect clock settings w).1 ≠ .error (.mismatchedContext t) ∧
      ∀ r, (generate effect clock settings w).1 = .ok r →
        (∀ f ∈ r.entityFailures, f.failure ≠ .mismatchedContext t) ∧
        ∀ f ∈ r.artifactFailures, f.failure ≠ .mismatchedContext t := by
  refine ⟨fun σ writer s state batch hlasts => ?_,
    fun σ writer s s' state state' batch r => exists_runFailures,
    fun effect w t => generate_matched effect clock settings w t⟩
  obtain ⟨as, s', has⟩ := attempts_of_lasts hlasts
  exact ⟨_, s', _, run_of_attempts has writer state⟩

/-- A table with types that no column has, the identifier's among them. -/
def oddlyTyped : Loaded :=
  ⟨⟨"tag.json"⟩, .ok
    { name := "Tag", storage := .sql
      attributes := .ofList [("id", "Uuid"), ("name", "String"), ("price", "Money")]
      associations := .ofList [], indices := [] }⟩

/-- Where every other write is refused too, its model fails for the identifier, the creation of its
    table for the price, and two files for the writer. -/
theorem failures_of_run_sample :
    ∃ r s' state' as, run {} frozenClock everyOther Stamper.new 0 [oddlyTyped] =
        (some r, s', state') ∧
      attempts {} frozenClock Stamper.new [oddlyTyped] = (some as, s') ∧
      RunFailures {} frozenClock Stamper.new [oddlyTyped] as s' everyOther 0 state' r ∧
      r.artifactFailures.map (fun f => (f.template, f.failure)) =
        [(some .resolvers, .write "./generated/resolvers/tag.js" (.other "disk full")),
          (some .model, .unsupportedType "Uuid"), (some .migration, .unsupportedType "Money"),
          (none, .write "./generated/schemas/commons.js" (.other "disk full"))] := by
  have hfailures : (run {} frozenClock everyOther Stamper.new 0 [oddlyTyped]).1.map
      (fun r => r.artifactFailures.map fun f => (f.template, f.failure)) = some
        [(some .resolvers, .write "./generated/resolvers/tag.js" (.other "disk full")),
          (some .model, .unsupportedType "Uuid"), (some .migration, .unsupportedType "Money"),
          (none, .write "./generated/schemas/commons.js" (.other "disk full"))] := by
    decide +kernel
  obtain ⟨r, hr, hlist⟩ := Option.map_eq_some_iff.mp hfailures
  have hrun : run {} frozenClock everyOther Stamper.new 0 [oddlyTyped] = (some r, _, _) :=
    Prod.ext hr rfl
  obtain ⟨as, has, hall⟩ := (failures_of_run {} frozenClock).2.1 Nat everyOther _ _ _ _ _ r hrun
  exact ⟨r, _, _, as, hrun, has, hall, hlist⟩

end Scaffold
