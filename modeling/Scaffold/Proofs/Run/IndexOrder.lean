import Mathlib
import Scaffold.Proofs.Run.Migrations

/-!
# When indices are created

  The migration of an entity's table creates its indices together with the
  table. The columns of foreign keys are added behind all tables, since they
  refer to other tables, so an index for a foreign key comes too early: it is
  created before its column. The heart is that no migration of an association
  creates an index; so whether the columns are there is settled among the
  migrations of tables, where foreign keys have not come yet.
-/

namespace Scaffold

/-! ## Applying migrations in turn -/

/-- Migrations that are applied in turn create indices only for columns that are there: for those
    in `made`, for those of the migrations before, and for their own. -/
def IndicesReady (made : List (String × String)) : List Migration → Prop
  | [] => True
  | m :: ms => (∀ i ∈ m.indexed, i ∈ made ++ m.columns) ∧ IndicesReady (made ++ m.columns) ms

theorem indicesReady_append (made : List (String × String)) (ms ns : List Migration) :
    IndicesReady made (ms ++ ns) ↔
      IndicesReady made ms ∧ IndicesReady (made ++ ms.flatMap Migration.columns) ns := by
  induction ms generalizing made with
  | nil =>
      rw [List.nil_append, List.flatMap_nil, List.append_nil]
      exact (and_iff_right trivial).symm
  | cons m ms ih =>
      rw [List.cons_append, IndicesReady, IndicesReady, ih, List.flatMap_cons, ← List.append_assoc,
        and_assoc]

theorem indicesReady_ofAssociations (made : List (String × String)) (known : List String)
    (es : List Entity) : IndicesReady made (Migration.ofAssociations known es) := by
  -- the induction is on the migrations, as `known` plays no part in what they index
  have hnone : ∀ m ∈ Migration.ofAssociations known es, m.indexed = [] := by
    intro m hm
    obtain ⟨owner, -, a, -, rfl | rfl⟩ := Migration.mem_ofAssociations hm <;> rfl
  generalize Migration.ofAssociations known es = ms at hnone
  induction ms generalizing made with
  | nil => trivial
  | cons m ms ih =>
      refine ⟨fun i hi => ?_, ih _ fun n hn => hnone n (List.mem_cons_of_mem m hn)⟩
      rw [hnone m List.mem_cons_self] at hi
      exact nomatch hi

/-! ## Among the migrations of tables -/

/-- A fact about each member of a list and those before it. -/
theorem forall_split_cons {α : Type} {p : List α → α → Prop} {a : α} {as : List α} :
    (∀ before b after, a :: as = before ++ b :: after → p before b) ↔
      p [] a ∧ ∀ before b after, as = before ++ b :: after → p (a :: before) b := by
  constructor
  · intro h
    refine ⟨h [] a as rfl, ?_⟩
    rintro before b after rfl
    exact h (a :: before) b after rfl
  · rintro ⟨hfirst, hrest⟩ before b after heq
    cases before with
    | nil =>
        obtain ⟨rfl, -⟩ := List.cons.inj heq
        exact hfirst
    | cons c before =>
        obtain ⟨rfl, htail⟩ := List.cons.inj heq
        exact hrest before b after htail

/-- The columns that an entity's table is created with, with their table. -/
def Entity.madeColumns (e : Entity) : List (String × String) := e.tableColumns.map (e.table, ·)

theorem Entity.mem_madeColumns {e : Entity} {table column : String} :
    (table, column) ∈ e.madeColumns ↔ e.table = table ∧ column ∈ e.tableColumns := by
  rw [madeColumns, List.mem_map]
  constructor
  · rintro ⟨_, hmem, heq⟩
    obtain ⟨rfl, rfl⟩ := Prod.mk.inj heq
    exact ⟨rfl, hmem⟩
  · rintro ⟨rfl, hmem⟩
    exact ⟨column, hmem, rfl⟩

theorem Migration.indexed_of_table {e : Entity} {m : Migration} (h : table e = .ok m) :
    m.indexed = e.indices.map (e.table, ·) := by
  obtain ⟨columns, -, rfl⟩ := table_eq_ok h
  rfl

/-- Among the migrations of tables, an index is ready if its column is one that this table, or one
    before, is created with. -/
theorem indicesReady_tables_iff {es : List Entity} {ms : List Migration}
    (h : List.Forall₂ (fun e m => Migration.table e = .ok m) es ms)
    (made : List (String × String)) :
    IndicesReady made ms ↔ ∀ before e after, es = before ++ e :: after → ∀ i ∈ e.indices,
      (e.table, i) ∈ made ++ before.flatMap Entity.madeColumns ++ e.madeColumns := by
  induction h generalizing made with
  | nil => exact iff_of_true trivial fun _ _ _ heq => nomatch List.append_eq_nil_iff.mp heq.symm
  | @cons e m es ms hm _ ih =>
      rw [IndicesReady, forall_split_cons, ih, Migration.columns_of_table hm,
        Migration.indexed_of_table hm, List.forall_mem_map, List.flatMap_nil, List.append_nil]
      simp only [List.flatMap_cons, ← List.append_assoc]
      rfl

/-! ## In the files of a run -/

theorem Entity.mem_tableColumns_of_attribute {e : Entity} {column : String}
    (h : column ∈ e.attributes.keys) : column ∈ e.tableColumns := by
  rw [tableColumns, List.mem_append]
  by_cases hid : column = Attributes.identifier
  · rw [hid]
    exact Or.inl List.mem_cons_self
  · obtain ⟨p, hp, rfl⟩ := List.mem_map.mp h
    refine Or.inr (List.mem_map_of_mem (List.mem_filter.mpr ⟨hp, ?_⟩))
    simpa using hid

section Files

variable {es : List Entity} {as : List Attempt} {files : List (Path × Migration)}

/-- The indices of a run are ready exactly if each is for a column that the table is created with,
    in its own migration or in that of an entity before with the same table. -/
theorem MigrationFiles.indicesReady_iff (h : MigrationFiles es as files) :
    IndicesReady [] (files.map Prod.snd) ↔
      ∀ before e after, es = before ++ e :: after → ∀ i ∈ e.indices,
        i ∈ e.tableColumns ∨ ∃ e' ∈ before, e'.table = e.table ∧ i ∈ e'.tableColumns := by
  obtain ⟨tables, htables, hmigrations⟩ := bind_eq_ok_iff.mp h.migrations
  rw [← Except.ok.inj hmigrations, indicesReady_append,
    and_iff_left (indicesReady_ofAssociations _ _ _),
    indicesReady_tables_iff (mapM_eq_ok_iff.mp htables)]
  refine forall₄_congr fun before e after _ => forall₂_congr fun i _ => ?_
  rw [List.nil_append, List.mem_append, Entity.mem_madeColumns, and_iff_right rfl, List.mem_flatMap,
    or_comm]
  simp only [Entity.mem_madeColumns]

theorem MigrationFiles.indicesReady_of_attributes (h : MigrationFiles es as files)
    (hall : ∀ e ∈ es, ∀ i ∈ e.indices, i ∈ e.attributes.keys) :
    IndicesReady [] (files.map Prod.snd) := by
  refine h.indicesReady_iff.mpr fun before e after hsplit i hi => Or.inl ?_
  have he : e ∈ es := hsplit ▸ List.mem_append_right before List.mem_cons_self
  exact Entity.mem_tableColumns_of_attribute (hall e he i hi)

end Files

/-- In plain years the files of migrations stand in the order of their names. -/
theorem exists_sorted_migrationFiles {σ : Type} {settings : Settings} {clock : Clock}
    {writer : Writer σ} {s : Stamper} {state : σ} {batch : List Loaded} {r : Report}
    (hg : settings.generateMigrations = true)
    (hrun : (run settings clock writer s state batch).1 = some r) (hr : r.isSuccess = true)
    (hplain : ∀ t ∈ s.issued clock
      ((run settings clock writer s state batch).2.1.reads - s.reads), t.HasPlainYear) :
    ∃ as files, (attempts settings clock s batch).1 = some as ∧
      MigrationFiles (relational settings batch) as files ∧
      files.Pairwise fun f g => f.1.Precedes g.1 := by
  obtain ⟨as, files, has, hfiles⟩ := exists_migrationFiles hg hrun hr
  refine ⟨as, files, has, hfiles, ?_⟩
  obtain ⟨ts, hdraws, hnamed⟩ := attempts_eq_some has
  rw [run_stamper] at hplain
  have hissued := hdraws.mem_issued (k := (attempts settings clock s batch).2.reads - s.reads)
    (by omega)
  have hsorted := hnamed.migrations_increase
    (fun _ hmem _ hplace => fixed_not_isMigration hmem hplace)
    (fun t ht => hplain t (hissued t ht)) hdraws.increasing.2
  -- the order of attempts for migrations is that of the files, which have their paths
  have hmigrations : (as.filterMap Attempt.migration?).Pairwise fun p q => p.1.Precedes q.1 := by
    refine List.pairwise_filterMap.mpr (hsorted.imp fun {a b} hab p hp q hq => ?_)
    obtain ⟨ha, rfl⟩ := Attempt.migration?_eq_some_iff.mp hp
    obtain ⟨hb, rfl⟩ := Attempt.migration?_eq_some_iff.mp hq
    exact hab ha hb
  rw [hfiles.attempts, List.pairwise_map] at hmigrations
  exact hmigrations

/-- **Indices and their columns**, in any run without failures whose times are of plain years. The
    files of its migrations stand in the order of their names, which is the order in which they
    are applied. Indices for attributes are then ready. An index for any other column is ready
    only if an earlier entity has the same table and brings the column with it. So an index for a
    foreign key is not ready for the migration that adds the key. -/
theorem indices_ready_iff {σ : Type} {settings : Settings} {clock : Clock} {writer : Writer σ}
    {s : Stamper} {state : σ} {batch : List Loaded} {r : Report}
    (hg : settings.generateMigrations = true)
    (hrun : (run settings clock writer s state batch).1 = some r) (hr : r.isSuccess = true)
    (hplain : ∀ t ∈ s.issued clock
      ((run settings clock writer s state batch).2.1.reads - s.reads), t.HasPlainYear) :
    ∃ as files, (attempts settings clock s batch).1 = some as ∧
      MigrationFiles (relational settings batch) as files ∧
      (files.Pairwise fun f g => f.1.Precedes g.1) ∧
      ((∀ e ∈ relational settings batch, ∀ i ∈ e.indices, i ∈ e.attributes.keys) →
        IndicesReady [] (files.map Prod.snd)) ∧
      (IndicesReady [] (files.map Prod.snd) ↔
        ∀ before e after, relational settings batch = before ++ e :: after → ∀ i ∈ e.indices,
          i ∈ e.tableColumns ∨ ∃ e' ∈ before, e'.table = e.table ∧ i ∈ e'.tableColumns) := by
  obtain ⟨as, files, has, hfiles, hsorted⟩ := exists_sorted_migrationFiles hg hrun hr hplain
  exact ⟨as, files, has, hfiles, hsorted, hfiles.indicesReady_of_attributes,
    hfiles.indicesReady_iff⟩

/-- A table with an attribute and the key of another table, and indices. -/
def indexedBatch (indices : List String) : List Loaded :=
  [⟨⟨"book.json"⟩, .ok
    { name := "Book", storage := .sql, attributes := .ofList [("title", "String")]
      associations := .ofList
        [("publisher", { kind := "sql_belongsTo", target := "Publisher", targetStorage := .sql
                         targetKey := some "publisherId" })]
      indices }⟩]

/-- The stamps of such a run are of the year 1999. -/
theorem plain_indexedBatch {indices : List String}
    (h : (run {} frozenClock Writer.dry Stamper.new () (indexedBatch indices)).2.1.reads = 2) :
    ∀ t ∈ Stamper.new.issued frozenClock ((run {} frozenClock Writer.dry Stamper.new ()
      (indexedBatch indices)).2.1.reads - Stamper.new.reads), t.HasPlainYear := by
  have hall : ∀ m : Fin 2, ∀ t ∈ Stamper.new.time? frozenClock m, t.HasPlainYear := by
    decide +kernel
  rw [h]
  rintro t ⟨m, hm, ht⟩
  exact hall ⟨m, hm⟩ t ht

/-- An index for the title is ready. -/
theorem indices_ready_iff_sample :
    ∃ r as files, (run {} frozenClock Writer.dry Stamper.new ()
        (indexedBatch ["title"])).1 = some r ∧ r.isSuccess = true ∧
      (attempts {} frozenClock Stamper.new (indexedBatch ["title"])).1 = some as ∧
      MigrationFiles (relational {} (indexedBatch ["title"])) as files ∧
      (files.Pairwise fun f g => f.1.Precedes g.1) ∧ IndicesReady [] (files.map Prod.snd) := by
  have hsuccess : (run {} frozenClock Writer.dry Stamper.new ()
      (indexedBatch ["title"])).1.map Report.isSuccess = some true := by decide +kernel
  obtain ⟨r, hrun, hr⟩ := Option.map_eq_some_iff.mp hsuccess
  obtain ⟨as, files, has, hfiles, hsorted, hattributes, -⟩ :=
    indices_ready_iff rfl hrun hr (plain_indexedBatch (by decide +kernel))
  exact ⟨r, as, files, hrun, hr, has, hfiles, hsorted, hattributes (by decide +kernel)⟩

/-- An index for the key of the publisher is created before the column, though every index of the
    entity is for an attribute or for a foreign key. -/
theorem index_before_column :
    ∃ r as files, (run {} frozenClock Writer.dry Stamper.new ()
        (indexedBatch ["title", "publisherId"])).1 = some r ∧ r.isSuccess = true ∧
      (attempts {} frozenClock Stamper.new (indexedBatch ["title", "publisherId"])).1 = some as ∧
      MigrationFiles (relational {} (indexedBatch ["title", "publisherId"])) as files ∧
      (files.Pairwise fun f g => f.1.Precedes g.1) ∧
      (∀ e ∈ relational {} (indexedBatch ["title", "publisherId"]), ∀ i ∈ e.indices,
        i ∈ e.attributes.keys ∨ i ∈ e.addedColumns) ∧
      ¬ IndicesReady [] (files.map Prod.snd) := by
  have hsuccess : (run {} frozenClock Writer.dry Stamper.new ()
      (indexedBatch ["title", "publisherId"])).1.map Report.isSuccess = some true := by
    decide +kernel
  obtain ⟨r, hrun, hr⟩ := Option.map_eq_some_iff.mp hsuccess
  obtain ⟨as, files, has, hfiles, hsorted⟩ :=
    exists_sorted_migrationFiles rfl hrun hr (plain_indexedBatch (by decide +kernel))
  refine ⟨r, as, files, hrun, hr, has, hfiles, hsorted, by decide +kernel, fun hready => ?_⟩
  obtain ⟨e, he⟩ : ∃ e, relational {} (indexedBatch ["title", "publisherId"]) = [e] :=
    List.length_eq_one_iff.mp (by decide +kernel)
  have hlate : ∀ e ∈ relational {} (indexedBatch ["title", "publisherId"]),
      "publisherId" ∈ e.indices ∧ "publisherId" ∉ e.tableColumns := by decide +kernel
  obtain ⟨hindex, hcolumn⟩ := hlate e (he ▸ List.mem_cons_self)
  rcases hfiles.indicesReady_iff.mp hready [] e [] he _ hindex with h | ⟨e', he', -⟩
  · exact hcolumn h
  · exact nomatch he'

end Scaffold
