import Scaffold.Proofs.Run.Count
import Scaffold.Proofs.Run.Holding
import Scaffold.Proofs.Run.MigrationOrder

/-!
# The migrations that a run writes

  A run is given its migrations as texts. Here they are read as what they do to
  a database: `Migration.ofEntities` lists the tables of all relational
  entities and behind them the columns and join tables of their associations,
  in step with the requests of a run. A run without failures has rendered every
  text, so its files of migrations hold exactly this list, whatever the clock
  and the writer are.
-/

namespace Scaffold

/-! ## What a migration does -/

namespace Migration

/-- The table that a migration creates. -/
def created? : Migration → Option String
  | createTable table _ _ => some table
  | addColumn _ _ _ => none

/-- The columns that a migration creates, with their table. -/
def columns : Migration → List (String × String)
  | createTable table columns _ => columns.map fun c => (table, c.name)
  | addColumn table column _ => [(table, column)]

/-- The columns that a migration creates an index for, with their table. -/
def indexed : Migration → List (String × String)
  | createTable table _ indices => indices.map (table, ·)
  | addColumn _ _ _ => []

/-! ## The migrations of entities -/

/-- The migrations of the associations of relational entities, in the order in which they are asked
    for; join tables among `known` are left out. -/
def ofAssociations (known : List String) : List Entity → List Migration
  | [] => []
  | e :: es =>
    let joins := Request.newJoins known (e.associations.implicit.ofShape .belongsToMany)
    (e.associations.implicit.ofShape .belongsTo).map (column e) ++ joins.map (joinTable e) ++
      ofAssociations (joins.map Association.keysIn ++ known) es

/-- The migrations of relational entities: all tables, then what their associations need. -/
def ofEntities (es : List Entity) : Except Failure (List Migration) := do
  let tables ← es.mapM table
  return tables ++ ofAssociations [] es

end Migration

namespace Entity

/-- The columns that the table of an entity is created with. -/
def tableColumns (e : Entity) : List String :=
  Migration.commonColumns.map Migration.TableColumn.name ++ e.attributes.others.map Prod.fst

/-- The columns that associations add to the table of an entity. -/
def addedColumns (e : Entity) : List String :=
  (e.associations.implicit.ofShape .belongsTo).map Association.targetKey

end Entity

namespace Migration

theorem ofAttributes_names {attributes : List (String × String)} {columns : List Column}
    (h : Column.ofAttributes attributes = .ok columns) :
    columns.map Column.name = attributes.map Prod.fst := by
  refine (map_eq_map_of_forall₂ ?_ (mapM_eq_ok_iff.mp h)).symm
  rintro ⟨name, primitive⟩ column hcolumn
  rw [Column.ofAttribute] at hcolumn
  split at hcolumn
  · rw [← Except.ok.inj hcolumn]
  · exact nomatch hcolumn

/-- If there is a migration for the table of an entity, it creates that table and its indices. -/
theorem table_eq_ok {e : Entity} {m : Migration} (h : table e = .ok m) :
    ∃ columns : List Column, columns.map Column.name = e.attributes.others.map Prod.fst ∧
      m = .createTable e.table (commonColumns ++ columns.map attributeColumn) e.indices := by
  obtain ⟨columns, hcolumns, hm⟩ := bind_eq_ok_iff.mp h
  exact ⟨columns, ofAttributes_names hcolumns, (Except.ok.inj hm).symm⟩

theorem columns_of_table {e : Entity} {m : Migration} (h : table e = .ok m) :
    m.columns = e.tableColumns.map (e.table, ·) := by
  obtain ⟨columns, hnames, rfl⟩ := table_eq_ok h
  rw [Migration.columns, Entity.tableColumns, ← hnames, List.map_append, List.map_append,
    List.map_map, List.map_map, List.map_map]
  rfl

/-- The join tables of entities are created once for each name that is not known. -/
theorem created_ofAssociations (known : List String) (es : List Entity) :
    (ofAssociations known es).filterMap created? = Request.newKeys known es := by
  induction es generalizing known with
  | nil => rfl
  | cons e es ih =>
      rw [ofAssociations, Request.newKeys, List.filterMap_append, List.filterMap_append, ih]
      congr 1
      have hcolumns : ((e.associations.implicit.ofShape .belongsTo).map (column e)).filterMap
          created? = [] := List.filterMap_eq_nil_iff.mpr fun m hm => by
        obtain ⟨a, -, rfl⟩ := List.mem_map.mp hm
        rfl
      rw [hcolumns, List.nil_append, List.filterMap_map, ← List.filterMap_eq_map]
      rfl

theorem mem_ofAssociations {known : List String} {es : List Entity} {m : Migration}
    (h : m ∈ ofAssociations known es) :
    ∃ owner ∈ es, ∃ a ∈ owner.associations.implicit.members,
      m = column owner a ∨ m = joinTable owner a := by
  induction es generalizing known with
  | nil => exact nomatch h
  | cons e es ih =>
      rw [ofAssociations, List.mem_append, List.mem_append] at h
      rcases h with (h | h) | h
      · obtain ⟨a, ha, rfl⟩ := List.mem_map.mp h
        exact ⟨e, List.mem_cons_self, a, (List.mem_filter.mp ha).1, Or.inl rfl⟩
      · obtain ⟨a, ha, rfl⟩ := List.mem_map.mp h
        have hshape := List.mem_filter.mp (Request.mem_of_mem_newJoins ha)
        exact ⟨e, List.mem_cons_self, a, hshape.1, Or.inr rfl⟩
      · obtain ⟨owner, howner, hm⟩ := ih h
        exact ⟨owner, List.mem_cons_of_mem e howner, hm⟩

end Migration

/-! ## What is asked for -/

/-- The text of a request, if it is for a migration. -/
def Request.migration? (r : Request) : Option (Except Failure String) :=
  if r.template.any Template.isMigration then some r.content else none

/-- Path and text of an attempt, if it is for a migration. -/
def Attempt.migration? (a : Attempt) : Option (Path × Except Failure String) :=
  if a.template.any Template.isMigration then some (a.path, a.content) else none

theorem Attempt.migration?_eq_some_iff {a : Attempt} {p : Path × Except Failure String} :
    a.migration? = some p ↔ a.IsMigration ∧ p = (a.path, a.content) := by
  have hmigration : a.template.any Template.isMigration = true ↔ a.IsMigration := by
    rw [Option.any_eq_true]
    rfl
  rw [migration?, ← hmigration]
  split
  · rename_i h
    rw [Option.some.injEq, eq_comm]
    exact (and_iff_right h).symm
  · rename_i h
    exact iff_of_false nofun fun hp => h hp.1

/-- The migrations among attempts have the texts of the migrations among their requests. -/
theorem Named.migrations {outputDir : Path} {ts : List Moment} {rs : List Request}
    {as : List Attempt} (h : Named outputDir ts rs as) :
    (as.filterMap Attempt.migration?).map Prod.snd = rs.filterMap Request.migration? := by
  have hat : ∀ (r : Request) (path : Path),
      (r.at path).migration?.map Prod.snd = r.migration? := by
    intro r path
    rw [Attempt.migration?, Request.migration?, Request.at]
    split <;> rfl
  rw [List.map_filterMap]
  induction h with
  | nil => rfl
  | fixed _ _ ih =>
      simp only [List.filterMap_cons, hat]
      rw [ih]
  | stamped _ _ ih =>
      simp only [List.filterMap_cons, hat]
      rw [ih]

namespace Request

variable {settings : Settings}

theorem migrations_ofEntity (hg : settings.generateMigrations = true) (e : Entity) :
    (ofEntity settings e).filterMap migration? =
      if e.isRelational then [(Migration.table e).map Migration.text] else [] := by
  rw [ofEntity, plan, Entity.isRelational, hg]
  cases e.storage <;> rfl

theorem migrations_ofAssociations (known : List String) (es : List Entity) :
    (ofAssociations known es).filterMap migration? =
      (Migration.ofAssociations known es).map fun m => .ok m.text := by
  induction es generalizing known with
  | nil => rfl
  | cons e es ih =>
      have hcolumn : migration? ∘ ofColumn e = some ∘ fun a => .ok (Migration.column e a).text := rfl
      have hjoin : migration? ∘ ofJoinTable e =
          some ∘ fun a => .ok (Migration.joinTable e a).text := rfl
      rw [ofAssociations, Migration.ofAssociations, List.filterMap_append, List.filterMap_append,
        ih, List.filterMap_map, List.filterMap_map, hcolumn, hjoin, List.filterMap_eq_map,
        List.filterMap_eq_map, List.map_append, List.map_append, List.map_map, List.map_map]
      rfl

/-- The migrations of a run are the tables of its relational entities, and then the migrations of
    their associations. -/
theorem migrations_all (hg : settings.generateMigrations = true) (es : List Entity) :
    (all settings es).filterMap migration? =
      ((es.filter (·.isRelational)).map fun e => (Migration.table e).map Migration.text) ++
        (Migration.ofAssociations [] (es.filter (·.isRelational))).map fun m => .ok m.text := by
  have hentities : (ofEntities settings es).filterMap migration? =
      (es.filter (·.isRelational)).map fun e => (Migration.table e).map Migration.text := by
    rw [ofEntities, List.filterMap_flatMap]
    induction es with
    | nil => rfl
    | cons e es ih =>
        rw [List.flatMap_cons, ih, migrations_ofEntity hg, List.filter_cons]
        split <;> rfl
  rw [all_eq, List.filterMap_append, List.filterMap_append, hentities, deferred, hg, if_pos rfl,
    migrations_ofAssociations]
  exact List.append_nil _

end Request

/-! ## What is written -/

/-- The files of the migrations that the attempts of a run on these relational entities write. -/
structure MigrationFiles (es : List Entity) (as : List Attempt) (files : List (Path × Migration)) :
    Prop where
  /-- They are the attempts for migrations, in the same order and with the same texts. -/
  attempts : as.filterMap Attempt.migration? = files.map fun f => (f.1, .ok f.2.text)
  /-- They do what the entities need. -/
  migrations : Migration.ofEntities es = .ok (files.map Prod.snd)

/-- Results for the members of one list can be told from those of another. -/
theorem exists_pairs {α β γ : Type} {l : List (α × β)} {g : γ → β} {cs : List γ}
    (h : l.map Prod.snd = cs.map g) :
    ∃ pairs : List (α × γ), l = pairs.map (fun p => (p.1, g p.2)) ∧ pairs.map Prod.snd = cs := by
  induction l generalizing cs with
  | nil =>
      obtain rfl := List.map_eq_nil_iff.mp h.symm
      exact ⟨[], rfl, rfl⟩
  | cons p l ih =>
      obtain ⟨c, cs', rfl, hp, hl⟩ := List.map_eq_cons_iff.mp h.symm
      obtain ⟨pairs, rfl, rfl⟩ := ih hl.symm
      exact ⟨(p.1, c) :: pairs, by rw [List.map_cons, hp], rfl⟩

/-- A run in which no attempt has failed has rendered all texts. -/
theorem Attempt.exists_text {σ : Type} {writer : Writer σ} {state : σ} {as : List Attempt}
    (h : (runAll writer state as).1.filterMap Outcome.failure? = []) {a : Attempt} (ha : a ∈ as) :
    ∃ text, a.content = .ok text := by
  obtain ⟨before, after, hsplit⟩ := List.append_of_mem ha
  obtain ⟨text, hcontent, -⟩ := (all_written h).2 before a after hsplit
  exact ⟨text, hcontent⟩

theorem Named.migrationFiles {settings : Settings} {ts : List Moment} {es : List Entity}
    {as : List Attempt} (hg : settings.generateMigrations = true)
    (hnamed : Named settings.outputDir ts (Request.all settings es) as)
    (htext : ∀ a ∈ as, ∃ text, a.content = .ok text) :
    ∃ files, MigrationFiles (es.filter (·.isRelational)) as files := by
  have htexts := hnamed.migrations
  rw [Request.migrations_all hg] at htexts
  -- the text for each table is one of those that the attempts have rendered
  have htable : ∀ e ∈ es.filter (·.isRelational), ∃ m, Migration.table e = .ok m := by
    intro e he
    have hmem := List.mem_append_left
      ((Migration.ofAssociations [] (es.filter (·.isRelational))).map fun m => .ok m.text)
      (List.mem_map_of_mem (f := fun e => (Migration.table e).map Migration.text) he)
    rw [← htexts] at hmem
    obtain ⟨p, hp, heq⟩ := List.mem_map.mp hmem
    obtain ⟨a, ha, hmigration⟩ := List.mem_filterMap.mp hp
    obtain ⟨text, hcontent⟩ := htext a ha
    rw [(Attempt.migration?_eq_some_iff.mp hmigration).2, hcontent] at heq
    cases hm : Migration.table e with
    | error f =>
        rw [hm] at heq
        exact nomatch heq
    | ok m => exact ⟨m, rfl⟩
  obtain ⟨tables, htables⟩ := exists_mapM_eq_ok htable
  have hrendered : (es.filter (·.isRelational)).map
      (fun e => (Migration.table e).map Migration.text) = tables.map fun m => .ok m.text := by
    refine map_eq_map_of_forall₂ (fun e m hm => ?_) (mapM_eq_ok_iff.mp htables)
    rw [hm]
    rfl
  rw [hrendered, ← List.map_append] at htexts
  obtain ⟨files, hfiles, hmigrations⟩ := exists_pairs htexts
  refine ⟨files, hfiles, ?_⟩
  rw [hmigrations]
  exact bind_eq_ok_iff.mpr ⟨tables, htables, rfl⟩

/-- The relational entities of a batch. -/
def relational (settings : Settings) (batch : List Loaded) : List Entity :=
  (assembled settings.policy batch).filter (·.isRelational)

section Success

variable {σ : Type} {settings : Settings} {clock : Clock} {writer : Writer σ} {s : Stamper}
  {state : σ} {batch : List Loaded} {r : Report}

/-- A run without failures has a text for everything that it was asked for, and has written all. -/
theorem exists_named_of_success (hrun : (run settings clock writer s state batch).1 = some r)
    (hr : r.isSuccess = true) :
    ∃ as ts, (attempts settings clock s batch).1 = some as ∧ r.written = as.map Attempt.path ∧
      Named settings.outputDir ts
        (Request.all settings (assembled settings.policy batch)) as ∧
      ∀ a ∈ as, ∃ text, a.content = .ok text := by
  obtain ⟨as, has, rfl, -⟩ := exists_attempts_of_run (Prod.ext hrun rfl)
  have hfailures := Report.artifactFailures_of_success hr
  obtain ⟨ts, -, hnamed⟩ := attempts_eq_some (congrArg Prod.fst has)
  exact ⟨as, ts, congrArg Prod.fst has, (Attempt.all_written hfailures).1, hnamed,
    fun a ha => Attempt.exists_text hfailures ha⟩

/-- A run without failures writes the migrations of its relational entities. -/
theorem exists_migrationFiles (hg : settings.generateMigrations = true)
    (hrun : (run settings clock writer s state batch).1 = some r) (hr : r.isSuccess = true) :
    ∃ as files, (attempts settings clock s batch).1 = some as ∧
      MigrationFiles (relational settings batch) as files := by
  obtain ⟨as, ts, has, -, hnamed, htext⟩ := exists_named_of_success hrun hr
  obtain ⟨files, hfiles⟩ := hnamed.migrationFiles hg htext
  exact ⟨as, files, has, hfiles⟩

end Success

end Scaffold
