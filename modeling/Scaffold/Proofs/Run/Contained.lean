import Scaffold.Proofs.Files.Below
import Scaffold.Proofs.Run.Migrations
import Scaffold.Proofs.Run.OwnFiles

/-!
# Inside the output directory

  The names of entities, columns and join tables go into the paths of a run as
  they are, and nothing keeps them inside the output directory. This is the
  exact law of what stays inside. The heart is that a stamp makes a name of
  whatever it precedes, so the migration of a table goes astray only where the
  other files of its entity do, and the names of the other migrations, which
  begin with a name already, are not changed by it.
-/

namespace Scaffold

open Files (Location locate IsBelow StaysBelow)
open Stamper

/-! ## What stands behind stamps -/

/-- The name of a column's migration, behind its stamp. -/
def Migration.columnFile (table column : String) : String :=
  "z-column-" ++ (column ++ "-to-" ++ table ++ ".js")

/-- The name of a join table's migration, behind its stamp. -/
def Migration.joinTableFile (table : String) : String := "z-through-" ++ (table ++ ".js")

/-- What stands behind the stamp of a place. -/
def Place.discriminator? : Place → Option String
  | .fixed _ => none
  | .stamped d => some d

namespace Request

def discriminators (rs : List Request) : List String := rs.filterMap (·.place.discriminator?)

theorem mem_discriminators {rs : List Request} {d : String} :
    d ∈ discriminators rs ↔ ∃ r ∈ rs, r.place = .stamped d := by
  rw [discriminators, List.mem_filterMap]
  refine exists_congr fun r => and_congr_right fun _ => ?_
  cases r.place with
  | fixed path => exact iff_of_false nofun nofun
  | stamped d' =>
      rw [Place.stamped.injEq]
      exact Option.some_inj

theorem discriminators_append (rs qs : List Request) :
    discriminators (rs ++ qs) = discriminators rs ++ discriminators qs :=
  List.filterMap_append

theorem discriminators_map {α : Type} (l : List α) {f : α → Request} {g : α → String}
    (h : ∀ a, (f a).place = .stamped (g a)) : discriminators (l.map f) = l.map g := by
  rw [discriminators, List.filterMap_map, ← List.filterMap_eq_map]
  refine List.filterMap_congr fun a _ => ?_
  show (f a).place.discriminator? = some (g a)
  rw [h]
  rfl

/-- The migrations of associations are named for the columns and the new join tables. -/
theorem mem_discriminators_ofAssociations {known : List String} {es : List Entity} {d : String} :
    d ∈ discriminators (ofAssociations known es) ↔
      (∃ e ∈ es, ∃ column ∈ e.addedColumns, d = s!"z-column-{column}-to-{e.table}") ∨
        ∃ table ∈ newKeys known es, d = s!"z-through-{table}" := by
  induction es generalizing known with
  | nil => exact iff_of_false nofun (by rintro (⟨e, he, -⟩ | ⟨table, htable, -⟩) <;> contradiction)
  | cons e es ih =>
      have hcolumns : discriminators ((e.associations.implicit.ofShape .belongsTo).map (ofColumn e)) =
          e.addedColumns.map fun column => s!"z-column-{column}-to-{e.table}" := by
        rw [Entity.addedColumns, List.map_map]
        exact discriminators_map _ fun _ => rfl
      have hjoins : ∀ joins : List Association, discriminators (joins.map (ofJoinTable e)) =
          (joins.map Association.keysIn).map fun table => s!"z-through-{table}" := by
        intro joins
        rw [List.map_map]
        exact discriminators_map _ fun _ => rfl
      rw [ofAssociations, newKeys, discriminators_append, discriminators_append, hcolumns, hjoins,
        List.mem_append, List.mem_append, ih, List.exists_mem_cons_iff]
      simp only [List.mem_map, List.mem_append, eq_comm (a := d), or_and_right, exists_or]
      exact or_or_or_comm

theorem mem_discriminators_deferred {settings : Settings} {es : List Entity} {d : String} :
    d ∈ discriminators (deferred settings es) ↔
      settings.generateMigrations = true ∧
        ((∃ e ∈ es.filter (·.isRelational), ∃ column ∈ e.addedColumns,
            d = s!"z-column-{column}-to-{e.table}") ∨
          ∃ e ∈ es.filter (·.isRelational), ∃ table ∈ e.joinTables, d = s!"z-through-{table}") := by
  rw [deferred]
  split
  · rename_i hg
    have hkeys := (newKeys_spec [] (es.filter (·.isRelational))).2
    rw [mem_discriminators_ofAssociations, and_iff_right hg]
    refine or_congr_right ?_
    constructor
    · rintro ⟨table, htable, hd⟩
      obtain ⟨e, he, htable⟩ := List.mem_flatMap.mp ((hkeys table).mp htable).1
      exact ⟨e, he, table, htable, hd⟩
    · rintro ⟨e, he, table, htable, hd⟩
      exact ⟨table, (hkeys table).mpr ⟨List.mem_flatMap.mpr ⟨e, he, htable⟩, List.not_mem_nil⟩, hd⟩
  · rename_i hg
    exact iff_of_false List.not_mem_nil fun h => hg h.1

theorem isName_schemasDir : Path.IsName schemasDir := ⟨by decide, by decide, by decide, by decide⟩

theorem schema_mem (settings : Settings) {es : List Entity} {e : Entity} (he : e ∈ es) :
    rendered .schema (.entity e) (.fixed (settings.outputDir.site (schemasDir, e.file))) ∈
      all settings es := by
  refine rendered_mem settings he ?_
  rw [mem_plan_iff]
  cases e.storage with
  | sql => exact Or.inl rfl
  | webservice => exact Or.inl rfl

theorem content_of_mem_deferred {settings : Settings} {es : List Entity} {r : Request}
    (h : r ∈ deferred settings es) : ∃ text, r.content = .ok text := by
  obtain ⟨-, owner, -, -, a, -, rfl | rfl⟩ := mem_deferred settings h
  · exact ⟨_, rfl⟩
  · exact ⟨_, rfl⟩

/-- How many stamps a run draws does not depend on where it writes. -/
theorem countP_stamped_outputDir (settings : Settings) (dir : Path) (es : List Entity) :
    ((all { settings with outputDir := dir } es).map place).countP Place.isStamped =
      ((all settings es).map place).countP Place.isStamped := by
  have hentity : ∀ e : Entity,
      ((ofEntity { settings with outputDir := dir } e).map place).countP Place.isStamped =
        ((ofEntity settings e).map place).countP Place.isStamped := by
    intro e
    rw [ofEntity, ofEntity, plan, plan]
    cases e.storage <;> cases settings.generateMigrations <;> rfl
  have hentities :
      ((ofEntities { settings with outputDir := dir } es).map place).countP Place.isStamped =
        ((ofEntities settings es).map place).countP Place.isStamped := by
    induction es with
    | nil => rfl
    | cons e es ih =>
        rw [ofEntities, ofEntities] at ih ⊢
        rw [List.flatMap_cons, List.flatMap_cons, List.map_append, List.map_append,
          List.countP_append, List.countP_append, ih, hentity]
  rw [all_eq, all_eq, List.map_append, List.map_append, List.map_append, List.map_append,
    List.countP_append, List.countP_append, List.countP_append, List.countP_append, hentities]
  rfl

end Request

/-! ## Names that stay inside -/

/-- The names of files, and what stands behind the stamps of migrations if there are any, stay in
    the directory they are put in. -/
structure Contained (migrations : Bool) (es : List Entity) : Prop where
  files : ∀ e ∈ es, StaysBelow e.file
  columns : migrations = true → ∀ e ∈ es.filter (·.isRelational), ∀ column ∈ e.addedColumns,
    StaysBelow (Migration.columnFile e.table column)
  joinTables : migrations = true → ∀ e ∈ es.filter (·.isRelational), ∀ table ∈ e.joinTables,
    StaysBelow (Migration.joinTableFile table)

theorem Migration.columnFile_eq (table column : String) :
    s!"z-column-{column}-to-{table}" ++ ".js" = columnFile table column := by
  simp [columnFile, toString, String.append_assoc]

theorem Migration.joinTableFile_eq (table : String) :
    s!"z-through-{table}" ++ ".js" = joinTableFile table := by
  simp [joinTableFile, toString, String.append_assoc]

section Stamps

variable (t : Moment)

theorem Moment.slash_notMem_front : '/' ∉ (t.stamp ++ "-").toList := by
  rw [String.toList_append, List.mem_append]
  rintro (h | h)
  · exact t.slash_notMem_stamp h
  · revert h
    decide

theorem Moment.dash_mem_front : '-' ∈ (t.stamp ++ "-").toList := by
  rw [String.toList_append]
  exact List.mem_append_right _ List.mem_cons_self

/-- The migration of a table stays inside if the other files of the entity do. -/
theorem Entity.staysBelow_stamped {e : Entity} (h : StaysBelow e.file) :
    StaysBelow (t.file e.nameLc) := by
  rw [Moment.file_eq]
  exact h.append t.slash_notMem_front t.dash_mem_front

theorem Migration.staysBelow_columnFile_iff (table column : String) :
    StaysBelow (t.file s!"z-column-{column}-to-{table}") ↔ StaysBelow (columnFile table column) := by
  rw [Moment.file_eq, columnFile_eq, columnFile]
  exact Files.staysBelow_append_iff t.slash_notMem_front t.dash_mem_front (by decide) (by decide) _

theorem Migration.staysBelow_joinTableFile_iff (table : String) :
    StaysBelow (t.file s!"z-through-{table}") ↔ StaysBelow (joinTableFile table) := by
  rw [Moment.file_eq, joinTableFile_eq, joinTableFile]
  exact Files.staysBelow_append_iff t.slash_notMem_front t.dash_mem_front (by decide) (by decide) _

end Stamps

/-- Without slashes everything stays inside. -/
theorem NoSlashes.contained {es : List Entity} (h : NoSlashes es) (migrations : Bool) :
    Contained migrations es := by
  constructor
  · intro e he
    exact Files.staysBelow_of_isName (isName_js (h.names e he))
  · intro _ e he column hcolumn
    obtain ⟨he, -⟩ := List.mem_filter.mp he
    obtain ⟨a, ha, rfl⟩ := List.mem_map.mp hcolumn
    have hkey := (h.keys e he a (List.mem_filter.mp ha).1).1
    have htable : '/' ∉ e.table.toList := Naming.slash_notMem_pluralize (h.names e he)
    rw [← Migration.columnFile_eq]
    refine Files.staysBelow_of_isName (isName_js ?_)
    simpa [toString] using ⟨hkey, htable⟩
  · intro _ e he table htable
    obtain ⟨he, -⟩ := List.mem_filter.mp he
    obtain ⟨a, ha, rfl⟩ := List.mem_map.mp htable
    have hkeys := (h.keys e he a (List.mem_filter.mp ha).1).2
    rw [← Migration.joinTableFile_eq]
    refine Files.staysBelow_of_isName (isName_js ?_)
    simpa [toString] using hkeys

/-! ## Runs -/

namespace Named

variable {ts : List Moment} {as : List Attempt} {settings : Settings} {es : List Entity}

/-- If the names stay inside, so do the files. -/
theorem isBelow (h : Named settings.outputDir ts (Request.all settings es) as)
    (hes : Contained settings.generateMigrations es) (current : Location) {a : Attempt}
    (ha : a ∈ as) : IsBelow (locate current a.path) (locate current settings.outputDir) := by
  rcases h.mem_paths (List.mem_map_of_mem ha) with hpath | ⟨t, -, d, hd, hpath⟩
  · rw [Request.fixedPaths_all] at hpath
    obtain ⟨site, hsite, hpath⟩ := List.mem_map.mp hpath
    rw [← hpath]
    refine StaysBelow.isBelow ?_ (Request.isName_dir hsite).1 settings.outputDir current
    rcases Request.mem_sites hsite with ⟨e, he, -, hfile⟩ | ⟨-, hfile | hfile⟩
    · rw [hfile]
      exact hes.files e he
    · rw [hfile]
      exact Files.staysBelow_of_isName isName_index
    · rw [hfile]
      exact Files.staysBelow_of_isName isName_commons
  · rw [hpath, pathFor_eq_site]
    refine StaysBelow.isBelow ?_ Request.isName_migrationsDir settings.outputDir current
    obtain ⟨r, hr, hplace⟩ := List.mem_map.mp hd
    rcases Request.stamped_cases settings hr hplace with ⟨e, he, rfl, -⟩ | hr
    · cases hplace
      exact Entity.staysBelow_stamped t (hes.files e he)
    · have hd := Request.mem_discriminators.mpr ⟨r, hr, hplace⟩
      obtain ⟨hg, ⟨e, he, column, hcolumn, rfl⟩ | ⟨e, he, table, htable, rfl⟩⟩ :=
        Request.mem_discriminators_deferred.mp hd
      · exact (Migration.staysBelow_columnFile_iff t _ _).mpr (hes.columns hg e he column hcolumn)
      · exact (Migration.staysBelow_joinTableFile_iff t _).mpr (hes.joinTables hg e he table htable)

section Inside

variable (h : Named settings.outputDir ts (Request.all settings es) as)
  (hbelow : ∀ current, ∀ file ∈ as.filterMap Attempt.file?,
    IsBelow (locate current file.1) (locate current settings.outputDir))
include h hbelow

theorem exists_path_isBelow {r : Request} (hr : r ∈ Request.all settings es) {text : String}
    (htext : r.content = .ok text) :
    ∃ path, (r.place = .fixed path ∨
        ∃ t d, r.place = .stamped d ∧ path = pathFor settings.outputDir t d) ∧
      ∀ current, IsBelow (locate current path) (locate current settings.outputDir) := by
  obtain ⟨path, hmem, hplace⟩ := h.exists_placed hr
  refine ⟨path, hplace, fun current => hbelow current (path, text) ?_⟩
  refine List.mem_filterMap.mpr ⟨r.at path, hmem, ?_⟩
  rw [Attempt.file?, Request.at, htext]

variable (hdir : settings.outputDir = ⟨"."⟩)
include hdir

theorem staysBelow_file {e : Entity} (he : e ∈ es) : StaysBelow e.file := by
  obtain ⟨path, hplace, hpath⟩ := h.exists_path_isBelow hbelow (Request.schema_mem settings he) rfl
  rcases hplace with hfixed | ⟨t, d, hstamped, -⟩
  · rw [← Place.fixed.inj hfixed] at hpath
    simp only [hdir] at hpath
    exact Files.staysBelow_of_forall Request.isName_schemasDir hpath
  · exact nomatch hstamped

theorem exists_staysBelow_file {d : String}
    (hd : d ∈ Request.discriminators (Request.deferred settings es)) :
    ∃ t : Moment, StaysBelow (t.file d) := by
  obtain ⟨r, hr, hstamped⟩ := Request.mem_discriminators.mp hd
  obtain ⟨text, htext⟩ := Request.content_of_mem_deferred hr
  have hall : r ∈ Request.all settings es := by
    rw [Request.all_eq]
    exact List.mem_append_left _ (List.mem_append_right _ hr)
  obtain ⟨path, hplace, hpath⟩ := h.exists_path_isBelow hbelow hall htext
  rcases hplace with hfixed | ⟨t, d', hstamped', rfl⟩
  · exact nomatch hfixed.symm.trans hstamped
  · obtain rfl := Place.stamped.inj (hstamped.symm.trans hstamped')
    simp only [pathFor_eq_site, hdir] at hpath
    exact ⟨t, Files.staysBelow_of_forall Request.isName_migrationsDir hpath⟩

/-- If all files are inside, wherever the run takes place, then so are the names. -/
theorem contained : Contained settings.generateMigrations es := by
  constructor
  · intro e he
    exact h.staysBelow_file hbelow hdir he
  · intro hg e he column hcolumn
    obtain ⟨t, ht⟩ := h.exists_staysBelow_file hbelow hdir
      (Request.mem_discriminators_deferred.mpr ⟨hg, Or.inl ⟨e, he, column, hcolumn, rfl⟩⟩)
    exact (Migration.staysBelow_columnFile_iff t _ _).mp ht
  · intro hg e he table htable
    obtain ⟨t, ht⟩ := h.exists_staysBelow_file hbelow hdir
      (Request.mem_discriminators_deferred.mpr ⟨hg, Or.inr ⟨e, he, table, htable, rfl⟩⟩)
    exact (Migration.staysBelow_joinTableFile_iff t _).mp ht

end Inside

end Named

theorem attempts_of_logged {σ : Type} {settings : Settings} {clock : Clock} {writer : Writer σ}
    {s s' : Stamper} {state state' : σ} {batch : List Loaded} {r : Report}
    {log : List (Path × String)}
    (h : run settings clock writer.logged s (state, []) batch = (some r, s', state', log)) :
    ∃ as, attempts settings clock s batch = (some as, s') ∧ log = as.filterMap Attempt.file? := by
  obtain ⟨as, has, -, hlog⟩ := exists_attempts_of_run h
  rw [Attempt.runAll_logged] at hlog
  exact ⟨as, has, (Prod.mk.inj hlog).2⟩

/-- Wherever a run of the batch takes place and its output directory is, all files that it hands to
    the writer are below that directory. -/
def RunsInside (settings : Settings) (clock : Clock) (s : Stamper) (batch : List Loaded) : Prop :=
  ∀ (dir : Path) (current : Location) (σ : Type) (writer : Writer σ) (s' : Stamper)
    (state state' : σ) (r : Report) (log : List (Path × String)),
    run { settings with outputDir := dir } clock writer.logged s (state, []) batch =
      (some r, s', state', log) →
    ∀ file ∈ log, IsBelow (locate current file.1) (locate current dir)

theorem Contained.runsInside {settings : Settings} {batch : List Loaded}
    (h : Contained settings.generateMigrations (assembled settings.policy batch)) (clock : Clock)
    (s : Stamper) : RunsInside settings clock s batch := by
  intro dir current σ writer s' state state' r log hrun file hfile
  obtain ⟨as, has, rfl⟩ := attempts_of_logged hrun
  obtain ⟨ts, -, hnamed⟩ := attempts_eq_some (congrArg Prod.fst has)
  obtain ⟨a, ha, hfile⟩ := List.mem_filterMap.mp hfile
  rw [← Attempt.path_of_file? hfile]
  exact hnamed.isBelow h current ha

theorem RunsInside.contained {settings : Settings} {clock : Clock} {s : Stamper}
    {batch : List Loaded} (h : RunsInside settings clock s batch)
    (hlasts : s.Lasts clock (stampsOf settings batch)) :
    Contained settings.generateMigrations (assembled settings.policy batch) := by
  -- it is enough to look at runs that write to where they take place
  have hhere : s.Lasts clock (stampsOf { settings with outputDir := ⟨"."⟩ } batch) := by
    rw [stampsOf, requestsOf, Request.countP_stamped_outputDir]
    exact hlasts
  obtain ⟨as, s', has⟩ := attempts_of_lasts hhere
  obtain ⟨ts, -, hnamed⟩ := attempts_eq_some (congrArg Prod.fst has)
  refine hnamed.contained (fun current file hfile => ?_) rfl
  have hrun := run_of_attempts has Writer.dry.logged ((), [])
  rw [Attempt.runAll_logged] at hrun
  exact h ⟨"."⟩ current Unit Writer.dry s' () _ _ _ hrun file hfile

/-- **Inside the output directory**: runs of a batch stay inside if the names of files and what
    stands behind the stamps of migrations do, and only then, as long as there are stamps. Without
    slashes they do. -/
theorem contained_iff (settings : Settings) (clock : Clock) (s : Stamper) (batch : List Loaded) :
    (Contained settings.generateMigrations (assembled settings.policy batch) →
      RunsInside settings clock s batch) ∧
    (s.Lasts clock (stampsOf settings batch) →
      (RunsInside settings clock s batch ↔
        Contained settings.generateMigrations (assembled settings.policy batch))) ∧
    (NoSlashes (assembled settings.policy batch) →
      Contained settings.generateMigrations (assembled settings.policy batch)) := by
  refine ⟨fun hes => hes.runsInside clock s, fun hlasts => ⟨fun h => h.contained hlasts, fun hes =>
    hes.runsInside clock s⟩, fun hslash => hslash.contained _⟩

theorem noSlashes_sampleBatch :
    NoSlashes (assembled (Settings.policy {}) sampleBatch) := by
  have hnames : ∀ e ∈ assembled (Settings.policy {}) sampleBatch, '/' ∉ e.nameLc.toList := by
    decide +kernel
  have hkeys : ∀ e ∈ assembled (Settings.policy {}) sampleBatch,
      ∀ a ∈ e.associations.implicit.members,
        '/' ∉ a.targetKey.toList ∧ '/' ∉ a.keysIn.toList := by
    decide +kernel
  exact ⟨hnames, hkeys⟩

theorem contained_iff_sample :
    Stamper.new.Lasts frozenClock (stampsOf {} sampleBatch) ∧
      RunsInside {} frozenClock Stamper.new sampleBatch := by
  obtain ⟨-, hiff, hslash⟩ := contained_iff {} frozenClock Stamper.new sampleBatch
  exact ⟨lasts_sampleBatch, (hiff lasts_sampleBatch).mpr (hslash noSlashes_sampleBatch)⟩

/-- Nothing keeps a run inside: an entity that is called `../../book` has all its files written
    next to the output directory. -/
theorem not_always_contained :
    ∃ r s' log, run nearSettings frozenClock Writer.dry.logged Stamper.new ((), [])
        [remoteDefinition "../../book"] = (some r, s', (), log) ∧
      r.isSuccess = true ∧
      ∃ file ∈ log, ¬ IsBelow (locate ["here"] file.1) (locate ["here"] nearSettings.outputDir) := by
  have hlog : (run nearSettings frozenClock Writer.dry.logged Stamper.new ((), [])
      [remoteDefinition "../../book"]).2.2.2.head?.map Prod.fst =
        some ⟨"o/schemas/../../book.js"⟩ := by
    decide +kernel
  have hsuccess : (run nearSettings frozenClock Writer.dry.logged Stamper.new ((), [])
      [remoteDefinition "../../book"]).1.map Report.isSuccess = some true := by
    decide +kernel
  generalize run nearSettings frozenClock Writer.dry.logged Stamper.new ((), [])
    [remoteDefinition "../../book"] = result at hlog hsuccess
  obtain ⟨report, s', ⟨⟩, log⟩ := result
  obtain ⟨r, rfl, hr⟩ := Option.map_eq_some_iff.mp hsuccess
  obtain ⟨file, hfile, hpath⟩ := Option.map_eq_some_iff.mp hlog
  refine ⟨r, s', log, rfl, hr, file, List.mem_of_mem_head? hfile, ?_⟩
  rintro ⟨names, hnames, hlocate⟩
  have hout : locate ["here"] nearSettings.outputDir = ["o", "here"] := by decide +kernel
  have hbook : locate ["here"] ⟨"o/schemas/../../book.js"⟩ = ["book.js", "here"] := by
    decide +kernel
  rw [hpath, hbook, hout] at hlocate
  -- both are two names from the root of all
  have hlength := congrArg List.length hlocate
  rw [List.length_append] at hlength
  exact hnames (List.length_eq_zero_iff.mp (Nat.add_eq_right.mp hlength.symm))

end Scaffold
