import Mathlib
import Scaffold.Proofs.Run.Migrations

/-!
# What a run creates more than once

  Tables come from names of entities through a plural, which takes different
  names to one, and from the keys of many-to-many associations, which are free
  texts. Columns come from attributes and from foreign keys, which are free
  texts too. The only repetition that a run itself avoids is that of a join
  table under a key that an earlier association has used. So tables and
  columns are created once exactly if the definitions see to it, and both
  conditions can fail in a run without failures.
-/

namespace Scaffold

/-! ## Columns -/

/-- The name of a column that holds a value. -/
def Migration.TableColumn.valued? (c : Migration.TableColumn) : Option String :=
  match c.content with
  | .plain _ => some c.name
  | _ => none

/-- The columns that a migration introduces beside those that every table has and the references of
    a join table, with their table. -/
def Migration.introduced : Migration → List (String × String)
  | createTable table columns _ =>
    ((columns.drop commonColumns.length).filterMap TableColumn.valued?).map (table, ·)
  | addColumn table column _ => [(table, column)]

/-- The columns that an entity has of its own: its attributes, and its foreign keys. -/
def Entity.ownColumns (e : Entity) : List String :=
  e.attributes.others.map Prod.fst ++ e.addedColumns

namespace Migration

theorem introduced_of_table {e : Entity} {m : Migration} (h : table e = .ok m) :
    m.introduced = (e.attributes.others.map Prod.fst).map (e.table, ·) := by
  obtain ⟨columns, hnames, rfl⟩ := table_eq_ok h
  have hvalued : TableColumn.valued? ∘ attributeColumn = some ∘ Column.name := rfl
  rw [introduced, List.drop_left, List.filterMap_map, hvalued, List.filterMap_eq_map, hnames]

theorem created_of_table {e : Entity} {m : Migration} (h : table e = .ok m) :
    m.created? = some e.table := by
  obtain ⟨columns, -, rfl⟩ := table_eq_ok h
  rfl

/-- Of the migrations of associations, those that add a column introduce it, and join tables
    introduce none. -/
theorem introduced_ofAssociations (known : List String) (es : List Entity) :
    (ofAssociations known es).flatMap introduced =
      es.flatMap fun e => e.addedColumns.map (e.table, ·) := by
  induction es generalizing known with
  | nil => rfl
  | cons e es ih =>
      have hjoins : ∀ as : List Association, (as.map (joinTable e)).flatMap introduced = [] :=
        fun as => List.flatMap_eq_nil_iff.mpr fun m hm => by
          obtain ⟨a, -, rfl⟩ := List.mem_map.mp hm
          rfl
      have hcolumns : ∀ as : List Association, (as.map (column e)).flatMap introduced =
          (as.map Association.targetKey).map (e.table, ·) := fun as => by
        rw [List.flatMap_map, List.map_map, List.map_eq_flatMap]
        rfl
      rw [ofAssociations, List.flatMap_append, List.flatMap_append, hjoins, hcolumns, ih,
        List.append_nil, List.flatMap_cons, Entity.addedColumns]

end Migration

/-! ## Both conditions -/

section Files

variable {es : List Entity} {as : List Attempt} {files : List (Path × Migration)}

theorem MigrationFiles.created (h : MigrationFiles es as files) :
    (files.map Prod.snd).filterMap Migration.created? =
      es.map Entity.table ++ Request.newKeys [] es := by
  obtain ⟨tables, htables, hmigrations⟩ := bind_eq_ok_iff.mp h.migrations
  rw [← Except.ok.inj hmigrations, List.filterMap_append, Migration.created_ofAssociations]
  have hcreated := map_eq_map_of_forall₂ (f := fun e : Entity => some e.table)
    (g := Migration.created?) (fun e m hm => (Migration.created_of_table hm).symm)
    (mapM_eq_ok_iff.mp htables)
  rw [show tables.filterMap Migration.created? = (tables.map Migration.created?).filterMap id by
    rw [List.filterMap_map]; rfl, ← hcreated, List.filterMap_map]
  exact congrArg (· ++ Request.newKeys [] es)
    (congrFun (List.filterMap_eq_map (f := Entity.table)) es)

theorem MigrationFiles.introduced (h : MigrationFiles es as files) :
    ((files.map Prod.snd).flatMap Migration.introduced).Perm
      (es.flatMap fun e => e.ownColumns.map (e.table, ·)) := by
  obtain ⟨tables, htables, hmigrations⟩ := bind_eq_ok_iff.mp h.migrations
  have hattributes := map_eq_map_of_forall₂
    (f := fun e : Entity => (e.attributes.others.map Prod.fst).map (e.table, ·))
    (g := Migration.introduced) (fun e m hm => (Migration.introduced_of_table hm).symm)
    (mapM_eq_ok_iff.mp htables)
  rw [← Except.ok.inj hmigrations, List.flatMap_append, Migration.introduced_ofAssociations,
    List.flatMap_def, ← hattributes, ← List.flatMap_def]
  refine (List.flatMap_append_perm es _ _).trans (List.Perm.of_eq (List.flatMap_congr ?_))
  intro e _
  rw [Entity.ownColumns, List.map_append]

theorem disjoint_map_pair_iff {α β : Type} {a b : α} {xs ys : List β} :
    (xs.map (a, ·)).Disjoint (ys.map (b, ·)) ↔ (a = b → xs.Disjoint ys) := by
  constructor
  · rintro h rfl x hx hy
    exact h (List.mem_map_of_mem hx) (List.mem_map_of_mem hy)
  · rintro h p hp hq
    obtain ⟨x, hx, rfl⟩ := List.mem_map.mp hp
    obtain ⟨y, hy, heq⟩ := List.mem_map.mp hq
    obtain ⟨rfl, rfl⟩ := Prod.mk.inj heq
    exact h rfl hx hy

/-- Every table is created once exactly if the entities have tables of their own, and none of these
    is a join table. -/
theorem MigrationFiles.nodup_created_iff (h : MigrationFiles es as files) :
    ((files.map Prod.snd).filterMap Migration.created?).Nodup ↔
      (es.map Entity.table).Nodup ∧ ∀ e ∈ es, e.table ∉ es.flatMap Entity.joinTables := by
  obtain ⟨hkeys, hmem⟩ := Request.newKeys_spec [] es
  rw [h.created, List.nodup_append]
  refine and_congr_right fun _ => ?_
  constructor
  · rintro ⟨-, hne⟩ e he hjoin
    exact hne e.table (List.mem_map_of_mem he) e.table
      ((hmem _).mpr ⟨hjoin, List.not_mem_nil⟩) rfl
  · refine fun hne => ⟨hkeys, fun t ht k hk heq => ?_⟩
    obtain ⟨e, he, rfl⟩ := List.mem_map.mp ht
    rw [← heq] at hk
    exact hne e he ((hmem _).mp hk).1

/-- Every column is introduced once exactly if each entity has distinct columns of its own, and
    entities with one table share none. -/
theorem MigrationFiles.nodup_introduced_iff (h : MigrationFiles es as files) :
    ((files.map Prod.snd).flatMap Migration.introduced).Nodup ↔
      (∀ e ∈ es, e.ownColumns.Nodup) ∧
        es.Pairwise fun e e' => e.table = e'.table → e.ownColumns.Disjoint e'.ownColumns := by
  have hpair : ∀ t : String, Function.Injective (fun column : String => (t, column)) :=
    fun t _ _ heq => (Prod.mk.inj heq).2
  -- within one entity the table is the same, so that the columns decide
  rw [h.introduced.nodup_iff, List.nodup_flatMap]
  refine and_congr (forall₂_congr fun e _ => List.nodup_map_iff (hpair e.table)) ?_
  rw [iff_iff_eq]
  congr 1
  funext e e'
  exact propext disjoint_map_pair_iff

end Files

/-! ## Runs -/

/-- **Created once**, in any run without failures. The migrations of the run create every table once
    exactly if its entities have tables of their own and no join table has the name of one. They
    introduce every column once exactly if each entity has distinct attributes and foreign keys,
    and entities with one table share none of these. -/
theorem created_once_iff {σ : Type} {settings : Settings} {clock : Clock} {writer : Writer σ}
    {s : Stamper} {state : σ} {batch : List Loaded} {r : Report}
    (hg : settings.generateMigrations = true)
    (hrun : (run settings clock writer s state batch).1 = some r) (hr : r.isSuccess = true) :
    ∃ as files, (attempts settings clock s batch).1 = some as ∧
      MigrationFiles (relational settings batch) as files ∧
      (((files.map Prod.snd).filterMap Migration.created?).Nodup ↔
        ((relational settings batch).map Entity.table).Nodup ∧
          ∀ e ∈ relational settings batch,
            e.table ∉ (relational settings batch).flatMap Entity.joinTables) ∧
      (((files.map Prod.snd).flatMap Migration.introduced).Nodup ↔
        (∀ e ∈ relational settings batch, e.ownColumns.Nodup) ∧
          (relational settings batch).Pairwise fun e e' =>
            e.table = e'.table → e.ownColumns.Disjoint e'.ownColumns) := by
  obtain ⟨as, files, has, hfiles⟩ := exists_migrationFiles hg hrun hr
  exact ⟨as, files, has, hfiles, hfiles.nodup_created_iff, hfiles.nodup_introduced_iff⟩

/-- Two entities, the first of which has an attribute `value` and a foreign key. -/
def pairBatch (first second key : String) : List Loaded :=
  [⟨⟨"first.json"⟩, .ok
      { name := first, storage := .sql, attributes := .ofList [("value", "Int")]
        associations := .ofList
          [("source", { kind := "sql_belongsTo", target := "Source", targetStorage := .sql
                        targetKey := some key })]
        indices := [] }⟩,
    ⟨⟨"second.json"⟩, .ok
      { name := second, storage := .sql, attributes := .ofList [("title", "String")]
        associations := .ofList [], indices := [] }⟩]

/-- Readings and stations have tables and columns of their own. -/
theorem created_once_iff_sample :
    ∃ r as files, (run {} frozenClock Writer.dry Stamper.new ()
        (pairBatch "reading" "station" "sourceId")).1 = some r ∧ r.isSuccess = true ∧
      (attempts {} frozenClock Stamper.new (pairBatch "reading" "station" "sourceId")).1 =
        some as ∧
      MigrationFiles (relational {} (pairBatch "reading" "station" "sourceId")) as files ∧
      ((files.map Prod.snd).filterMap Migration.created?).Nodup ∧
      ((files.map Prod.snd).flatMap Migration.introduced).Nodup := by
  have hsuccess : (run {} frozenClock Writer.dry Stamper.new ()
      (pairBatch "reading" "station" "sourceId")).1.map Report.isSuccess = some true := by decide +kernel
  obtain ⟨r, hrun, hr⟩ := Option.map_eq_some_iff.mp hsuccess
  obtain ⟨as, files, has, hfiles, hcreated, hintroduced⟩ := created_once_iff rfl hrun hr
  have htables : ((relational {} (pairBatch "reading" "station" "sourceId")).map
      Entity.table).Nodup := by decide +kernel
  have hjoins : ∀ e ∈ relational {} (pairBatch "reading" "station" "sourceId"), e.table ∉
      (relational {} (pairBatch "reading" "station" "sourceId")).flatMap Entity.joinTables := by
    decide +kernel
  have hcolumns : ∀ e ∈ relational {} (pairBatch "reading" "station" "sourceId"),
      e.ownColumns.Nodup := by decide +kernel
  refine ⟨r, as, files, hrun, hr, has, hfiles, hcreated.mpr ⟨htables, hjoins⟩,
    hintroduced.mpr ⟨hcolumns, ?_⟩⟩
  exact (List.pairwise_map.mp htables).imp fun hne heq => absurd heq hne

/-- The plural of `datum` is `data`, and that of `data` is `data` again, so that table is created
    twice; and nothing keeps the foreign key `value` from the attribute of that name. -/
theorem not_always_created_once :
    ∃ r as files, (run {} frozenClock Writer.dry Stamper.new ()
        (pairBatch "datum" "data" "value")).1 = some r ∧ r.isSuccess = true ∧
      (attempts {} frozenClock Stamper.new (pairBatch "datum" "data" "value")).1 = some as ∧
      MigrationFiles (relational {} (pairBatch "datum" "data" "value")) as files ∧
      ¬ ((files.map Prod.snd).filterMap Migration.created?).Nodup ∧
      ¬ ((files.map Prod.snd).flatMap Migration.introduced).Nodup := by
  have hsuccess : (run {} frozenClock Writer.dry Stamper.new ()
      (pairBatch "datum" "data" "value")).1.map Report.isSuccess = some true := by decide +kernel
  obtain ⟨r, hrun, hr⟩ := Option.map_eq_some_iff.mp hsuccess
  obtain ⟨as, files, has, hfiles⟩ := exists_migrationFiles rfl hrun hr
  have htables : ¬ ((relational {} (pairBatch "datum" "data" "value")).map Entity.table).Nodup := by
    decide +kernel
  have hcolumns : ¬ ∀ e ∈ relational {} (pairBatch "datum" "data" "value"),
      e.ownColumns.Nodup := by decide +kernel
  exact ⟨r, as, files, hrun, hr, has, hfiles, fun h => htables (hfiles.nodup_created_iff.mp h).1,
    fun h => hcolumns (hfiles.nodup_introduced_iff.mp h).1⟩

end Scaffold
