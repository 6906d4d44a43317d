import Scaffold.Run.Report

/-!
# What a run asks for

  The requests of a run fall into three parts: the artifacts of the entities,
  the migrations of their associations, and the files of the batch. Migrations
  are the requests that draw a stamp; in the first part they create the tables
  of entities, in the second they belong to associations, and in the third
  there are none.
-/

namespace Scaffold

/-! ## Migrations -/

/-- Templates of migrations. -/
def Template.isMigration : Template → Bool
  | migration | associationMigration | throughMigration => true
  | _ => false

/-- The tables that a migration refers to, its own one included where it adds to one. -/
def Migration.refersTo : Migration → List String
  | addColumn table _ target => [table, target]
  | createTable _ columns _ => columns.filterMap fun c => match c.content with
    | .reference table => some table
    | _ => none

/-- The table of an entity is spelled as an association spells the table of its target, if both
    name the entity up to the letter case of the first character. -/
theorem Entity.table_eq_targetLcPl {e : Entity} {a : Association} (h : a.targetLc = e.nameLc) :
    e.table = a.targetLcPl := by
  rw [Association.targetLcPl, h]
  rfl

namespace Request

variable (settings : Settings)

/-- The request has the template of a migration. -/
def IsMigration (r : Request) : Prop := ∃ t ∈ r.template, t.isMigration = true

/-! ## The artifacts of entities -/

theorem mem_plan_iff {e : Entity} {p : Template × Place} :
    p ∈ plan settings e ↔
      match e.storage with
      | .sql => p = (.schema, fileIn settings schemasDir s!"{e.nameLc}.js") ∨
          p = (.resolvers, fileIn settings resolversDir s!"{e.nameLc}.js") ∨
          p = (.model, fileIn settings modelsDir s!"{e.nameLc}.js") ∨
          settings.generateMigrations = true ∧ p = (.migration, .stamped e.nameLc)
      | .webservice => p = (.schema, fileIn settings schemasDir s!"{e.nameLc}.js") ∨
          p = (.webserviceModel, fileIn settings remoteModelsDir s!"{e.nameLc}.js") ∨
          p = (.webserviceResolvers, fileIn settings resolversDir s!"{e.nameLc}.js") := by
  rw [plan]
  cases e.storage with
  | sql => cases settings.generateMigrations <;> simp
  | webservice => simp

/-- Among the artifacts of an entity, the one that draws a stamp is the creation of its table. -/
theorem plan_place {e : Entity} {p : Template × Place} (h : p ∈ plan settings e) :
    (p.1 = .migration ∧ p.2 = .stamped e.nameLc ∧ settings.generateMigrations = true ∧
        e.isRelational = true) ∨
      p.1.isMigration = false ∧ ∃ path, p.2 = .fixed path := by
  rw [mem_plan_iff] at h
  cases hs : e.storage with
  | sql =>
      rw [hs] at h
      rcases h with rfl | rfl | rfl | ⟨hg, rfl⟩
      · exact Or.inr ⟨rfl, _, rfl⟩
      · exact Or.inr ⟨rfl, _, rfl⟩
      · exact Or.inr ⟨rfl, _, rfl⟩
      · exact Or.inl ⟨rfl, rfl, hg, by rw [Entity.isRelational, hs]; rfl⟩
  | webservice =>
      rw [hs] at h
      rcases h with rfl | rfl | rfl <;> exact Or.inr ⟨rfl, _, rfl⟩

/-- The creation of an entity's table. -/
def ofTable (e : Entity) : Request := rendered .migration (.entity e) (.stamped e.nameLc)

theorem ofTable_mem {e : Entity} (hg : settings.generateMigrations = true)
    (he : e.isRelational = true) : ofTable e ∈ ofEntity settings e := by
  have hs : e.storage = .sql := by
    cases hs : e.storage with
    | sql => rfl
    | webservice => rw [Entity.isRelational, hs] at he; exact nomatch he
  refine List.mem_map.mpr ⟨(.migration, .stamped e.nameLc), ?_, rfl⟩
  rw [mem_plan_iff, hs]
  exact Or.inr (Or.inr (Or.inr ⟨hg, rfl⟩))

/-- A request among the artifacts of an entity is the creation of its table or no migration. -/
theorem mem_ofEntity {e : Entity} {r : Request} (h : r ∈ ofEntity settings e) :
    (r = ofTable e ∧ settings.generateMigrations = true ∧ e.isRelational = true) ∨
      ¬ r.IsMigration ∧ ∃ path, r.place = .fixed path := by
  obtain ⟨p, hp, rfl⟩ := List.mem_map.mp h
  obtain ⟨template, place⟩ := p
  rcases plan_place settings hp with ⟨rfl, rfl, hg, he⟩ | ⟨htemplate, path, rfl⟩
  · exact Or.inl ⟨rfl, hg, he⟩
  · refine Or.inr ⟨?_, path, rfl⟩
    rintro ⟨t, ht, hm⟩
    rw [← Option.some.inj ht] at hm
    exact nomatch hm.symm.trans htemplate

/-! ## The migrations of associations -/

theorem mem_of_mem_newJoins {known : List String} {as : List Association} {a : Association}
    (h : a ∈ newJoins known as) : a ∈ as := by
  induction as generalizing known with
  | nil => exact h
  | cons b bs ih =>
      rw [newJoins] at h
      by_cases hb : b.keysIn ∈ known
      · rw [if_pos hb] at h
        exact List.mem_cons_of_mem b (ih h)
      · rw [if_neg hb] at h
        rcases List.mem_cons.mp h with rfl | h
        · exact List.mem_cons_self
        · exact List.mem_cons_of_mem b (ih h)

/-- Every migration in the second part belongs to an implicit association of an entity. -/
theorem mem_ofAssociations {known : List String} {es : List Entity} {r : Request}
    (h : r ∈ ofAssociations known es) :
    ∃ owner ∈ es, ∃ a ∈ owner.associations.implicit.members,
      r = ofColumn owner a ∨ r = ofJoinTable owner a := by
  induction es generalizing known with
  | nil => exact nomatch h
  | cons e es ih =>
      rw [ofAssociations] at h
      rcases List.mem_append.mp h with h | h
      · rcases List.mem_append.mp h with h | h
        · obtain ⟨a, ha, rfl⟩ := List.mem_map.mp h
          exact ⟨e, List.mem_cons_self, a, (List.mem_filter.mp ha).1, Or.inl rfl⟩
        · obtain ⟨a, ha, rfl⟩ := List.mem_map.mp h
          have hshape := List.mem_filter.mp (mem_of_mem_newJoins ha)
          exact ⟨e, List.mem_cons_self, a, hshape.1, Or.inr rfl⟩
      · obtain ⟨owner, howner, hr⟩ := ih h
        exact ⟨owner, List.mem_cons_of_mem e howner, hr⟩

/-! ## The three parts -/

/-- The artifacts of all entities. -/
def ofEntities (es : List Entity) : List Request := es.flatMap (ofEntity settings)

/-- The migrations of associations, if there are to be migrations. -/
def deferred (es : List Entity) : List Request :=
  if settings.generateMigrations then ofAssociations [] (es.filter (·.isRelational)) else []

theorem all_eq (es : List Entity) :
    all settings es = ofEntities settings es ++ deferred settings es ++ ofBatch settings es := rfl

/-- A deferred request is the migration of an implicit association of a relational entity. -/
theorem mem_deferred {es : List Entity} {r : Request} (h : r ∈ deferred settings es) :
    settings.generateMigrations = true ∧
      ∃ owner ∈ es, owner.isRelational = true ∧ ∃ a ∈ owner.associations.implicit.members,
        r = ofColumn owner a ∨ r = ofJoinTable owner a := by
  rw [deferred] at h
  cases hg : settings.generateMigrations with
  | false =>
      rw [hg] at h
      exact nomatch h
  | true =>
      rw [hg, if_pos rfl] at h
      obtain ⟨owner, howner, hr⟩ := mem_ofAssociations h
      obtain ⟨hmem, hrel⟩ := List.mem_filter.mp howner
      exact ⟨rfl, owner, hmem, hrel, hr⟩

theorem ofBatch_place {es : List Entity} {r : Request} (h : r ∈ ofBatch settings es) :
    ¬ r.IsMigration ∧ ∃ path, r.place = .fixed path := by
  simp only [ofBatch, List.mem_cons, List.not_mem_nil, or_false] at h
  rcases h with rfl | rfl | rfl
  · refine ⟨?_, _, rfl⟩
    rintro ⟨t, ht, hm⟩
    rw [← Option.some.inj ht] at hm
    exact nomatch hm
  · exact ⟨fun ⟨_, ht, _⟩ => (nomatch ht), _, rfl⟩
  · exact ⟨fun ⟨_, ht, _⟩ => (nomatch ht), _, rfl⟩

/-- Before the files of the batch, every request is for a template. -/
theorem template_isSome {es : List Entity} {r : Request} (h : r ∈ ofEntities settings es ++ deferred settings es) : r.template.isSome = true := by
  rcases List.mem_append.mp h with h | h
  · obtain ⟨e, -, he⟩ := List.mem_flatMap.mp h
    obtain ⟨p, -, rfl⟩ := List.mem_map.mp he
    rfl
  · obtain ⟨-, owner, -, -, a, -, rfl | rfl⟩ := mem_deferred settings h <;> rfl

/-- What draws a stamp is the creation of a table, or it is deferred. -/
theorem stamped_cases {es : List Entity} {r : Request} {d : String} (h : r ∈ all settings es)
    (hplace : r.place = .stamped d) :
    (∃ e ∈ es, r = ofTable e ∧ settings.generateMigrations = true ∧ e.isRelational = true) ∨
      r ∈ deferred settings es := by
  rw [all_eq, List.mem_append, List.mem_append] at h
  rcases h with (h | h) | h
  · obtain ⟨e, he, h⟩ := List.mem_flatMap.mp h
    rcases mem_ofEntity settings h with htable | ⟨-, path, hpath⟩
    · exact Or.inl ⟨e, he, htable⟩
    · exact nomatch hpath.symm.trans hplace
  · exact Or.inr h
  · obtain ⟨-, path, hpath⟩ := ofBatch_place settings h
    exact nomatch hpath.symm.trans hplace

end Request

/-! ## What a run makes of its requests -/

section Runs

variable {σ : Type} {settings : Settings} {clock : Clock} {s s' : Stamper} {batch : List Loaded}

theorem run_of_attempts {as : List Attempt} (h : attempts settings clock s batch = (some as, s'))
    (writer : Writer σ) (state : σ) :
    run settings clock writer s state batch =
      (some (.of (assembled settings.policy batch) (leftOut settings.policy batch)
        (Attempt.runAll writer state as).1), s', (Attempt.runAll writer state as).2) := by
  rw [run, h]

theorem run_of_no_attempts (h : attempts settings clock s batch = (none, s'))
    (writer : Writer σ) (state : σ) :
    run settings clock writer s state batch = (none, s', state) := by
  rw [run, h]

/-- A run that comes to its end has made its attempts, and its report tells what came of them. -/
theorem exists_attempts_of_run {writer : Writer σ} {state state' : σ} {r : Report}
    (h : run settings clock writer s state batch = (some r, s', state')) :
    ∃ as, attempts settings clock s batch = (some as, s') ∧
      r = .of (assembled settings.policy batch) (leftOut settings.policy batch)
        (Attempt.runAll writer state as).1 ∧
      state' = (Attempt.runAll writer state as).2 := by
  cases has : attempts settings clock s batch with
  | mk o s₁ =>
      cases o with
      | none =>
          rw [run_of_no_attempts has] at h
          exact nomatch (Prod.mk.inj h).1
      | some as =>
          rw [run_of_attempts has] at h
          cases h
          exact ⟨as, rfl, rfl, rfl⟩

end Runs

end Scaffold
