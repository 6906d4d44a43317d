import Scaffold.Proofs.Artifact.JoinColumns
import Scaffold.Proofs.Run.Demands
import Scaffold.Proofs.Run.References

/-!
# Join tables of several declarers

  Where several associations declare one join table, the first of them makes it,
  with the keys that it has itself, while each model goes on to use the key of its
  own association. So a later declaration is kept only if it agrees with the
  first: its key must be one of the two columns there, and this column must refer
  to its table. That is so for the two sides of one association that are told the
  same keys or none, and it is not looked after for any others.
-/

namespace Scaffold

open Stamper

/-! ## Columns that count -/

/-- What the column of that name holds in the table that a migration creates. Of several columns of
    one name the last one counts. -/
def Migration.column? (name : String) : Migration → Option Migration.Content
  | createTable _ columns _ => (columns.reverse.find? (·.name == name)).map TableColumn.content
  | addColumn _ _ _ => none

theorem Migration.common_not_reference {c : TableColumn} (h : c ∈ commonColumns) (table : String) :
    c.content ≠ .reference table := by
  have hall : (commonColumns.all fun c => !c.isReference) = true := by decide
  intro heq
  have hnot := List.all_eq_true.mp hall c h
  rw [TableColumn.isReference, heq] at hnot
  exact nomatch hnot

/-- The key of the other side is in front of the owner's key, if both are one. -/
theorem Migration.column?_joinTable_iff {owner : Entity} {a : Association} {key table : String} :
    (joinTable owner a).column? key = some (.reference table) ↔
      (key = a.otherKey ∧ table = a.targetLcPl) ∨
        (key ≠ a.otherKey ∧ key = owner.keyOr a.spec.sourceKey ∧ table = owner.table) := by
  have hcolumns : (joinTable owner a).column? key =
      ((⟨a.otherKey, .reference a.targetLcPl⟩ ::
        ⟨owner.keyOr a.spec.sourceKey, .reference owner.table⟩ ::
          commonColumns.reverse : List TableColumn).find? (·.name == key)).map
            TableColumn.content := rfl
  rw [hcolumns]
  by_cases hother : key = a.otherKey
  · rw [List.find?_cons_of_pos (by simp [hother])]
    simp [hother, eq_comm]
  · rw [List.find?_cons_of_neg (by simp [Ne.symm hother])]
    by_cases hown : key = owner.keyOr a.spec.sourceKey
    · rw [List.find?_cons_of_pos (by simp [hown])]
      rw [or_iff_right (fun h => hother h.1), and_iff_right hother, and_iff_right hown]
      simp [eq_comm]
    · rw [List.find?_cons_of_neg (by simp [Ne.symm hown])]
      refine iff_of_false (fun h => ?_) (by simp [hother, hown])
      obtain ⟨c, hc, hcontent⟩ := Option.map_eq_some_iff.mp h
      exact common_not_reference (List.mem_reverse.mp (List.mem_of_find?_eq_some hc)) table hcontent

namespace Demand

/-! ## The first declarer -/

theorem migration_of_isJoin {d : Demand} (h : d.isJoin = true) :
    d.migration = .joinTable d.owner d.association := if_pos h

theorem sameTable_iff {d d' : Demand} :
    d.sameTable d' = true ↔
      d.isJoin = true ∧ d'.isJoin = true ∧ d.association.keysIn = d'.association.keysIn := by
  rw [sameTable, Bool.and_eq_true, Bool.and_eq_true, beq_iff_eq, and_assoc]

theorem sameTable_congr {d d' : Demand} (h : d.sameTable d' = true) :
    d.sameTable = d'.sameTable := by
  obtain ⟨hd, hd', hkeys⟩ := sameTable_iff.mp h
  funext c
  rw [sameTable, sameTable, hd, hd', hkeys]

/-- Of the demands for the table of `d`, this one stands first, and it alone is required. -/
structure FirstFor (ds : List Demand) (d first : Demand) : Prop where
  found : ds.find? d.sameTable = some first
  only : (unmet [] ds).filter d.sameTable = [first]

theorem exists_firstFor {ds : List Demand} {d : Demand} (h : d ∈ ds) (hjoin : d.isJoin = true) :
    ∃ first, FirstFor ds d first := by
  have honce := (tablesOnce_unmet ds).once d.association.keysIn
  rw [if_pos (mem_tables_iff.mpr ⟨d, h, hjoin, rfl⟩)] at honce
  have hlength : ((unmet [] ds).filter d.sameTable).length = 1 := by
    rw [← honce, tables, List.count_eq_countP, List.countP_map, List.countP_filter,
      List.countP_eq_length_filter]
    refine congrArg List.length (List.filter_congr fun c _ => ?_)
    simp [sameTable, hjoin, Bool.and_comm, eq_comm, Bool.beq_eq_decide_eq]
  obtain ⟨first, hfirst⟩ := List.length_eq_one_iff.mp hlength
  obtain ⟨hmem, hsame⟩ := List.mem_filter.mp (hfirst ▸ List.mem_singleton_self first)
  refine ⟨first, ?_, hfirst⟩
  rw [sameTable_congr hsame]
  exact find?_of_mem_unmet hmem (sameTable_iff.mp hsame).2.1

namespace FirstFor

variable {ds : List Demand} {d first : Demand}

theorem sameTable (h : FirstFor ds d first) : d.sameTable first = true :=
  List.find?_some h.found

theorem mem (h : FirstFor ds d first) : first ∈ unmet [] ds :=
  (List.mem_filter.mp (h.only ▸ List.mem_singleton_self first)).1

/-- It creates the table of `d`. -/
theorem created (h : FirstFor ds d first) :
    first.migration.created? = some d.association.keysIn := by
  obtain ⟨-, hjoin, hkeys⟩ := sameTable_iff.mp h.sameTable
  rw [migration_of_isJoin hjoin, hkeys]
  rfl

end FirstFor

/-! ## Declarations that are kept -/

/-- In the migration of `first`, the key that the model of `d` uses is a column that refers to the
    table of the owner. -/
def KeptBy (d first : Demand) : Prop :=
  first.migration.column? (Model.Call.of d.owner d.association).foreignKey =
    some (.reference d.owner.table)

instance (d first : Demand) : Decidable (d.KeptBy first) :=
  inferInstanceAs (Decidable (_ = _))

/-- The key of the owner's side in a join table. -/
def ownKey (d : Demand) : String := d.owner.keyOr d.association.spec.sourceKey

theorem foreignKey_of_isJoin {d : Demand} (h : d.isJoin = true) :
    (Model.Call.of d.owner d.association).foreignKey = d.ownKey := by
  have hshape : d.association.shape = .belongsToMany := beq_iff_eq.mp h
  rw [Model.Call.of, hshape]
  rfl

section Kept

variable {d first : Demand}

theorem keptBy_iff (h : d.sameTable first = true) :
    d.KeptBy first ↔
      (d.ownKey = first.association.otherKey ∧ d.owner.table = first.association.targetLcPl) ∨
        (d.ownKey ≠ first.association.otherKey ∧ d.ownKey = first.ownKey ∧
          d.owner.table = first.owner.table) := by
  obtain ⟨hd, hfirst, -⟩ := sameTable_iff.mp h
  rw [KeptBy, foreignKey_of_isJoin hd, migration_of_isJoin hfirst]
  exact Migration.column?_joinTable_iff

/-- A declaration that makes the table itself is kept unless it has one key for both sides. -/
theorem keptBy_self (h : d.isJoin = true) (hkeys : d.ownKey ≠ d.association.otherKey) :
    d.KeptBy d :=
  (keptBy_iff (sameTable_self h)).mpr (Or.inr ⟨hkeys, rfl, rfl⟩)

/-- The other side is kept if both sides are told the same key for it, or none. -/
theorem keptBy_of_mirrored (h : d.sameTable first = true)
    (hname : first.association.targetLc = d.owner.nameLc)
    (hkey : d.association.spec.sourceKey = first.association.spec.targetKey) :
    d.KeptBy first := by
  refine (keptBy_iff h).mpr (Or.inl ⟨?_, Entity.table_eq_targetLcPl hname⟩)
  rw [ownKey, Entity.keyOr, Association.otherKey, hkey, hname]

end Kept

/-! ## Runs -/

theorem mem_declared {es : List Entity} {e : Entity} (he : e ∈ es.filter (·.isRelational))
    {a : Association} (ha : a ∈ e.associations.implicit.members) (hs : a.shape = .belongsToMany) :
    ⟨e, a⟩ ∈ declared es := by
  refine List.mem_flatMap.mpr ⟨e, he, List.mem_map_of_mem (List.mem_append_right _ ?_)⟩
  exact List.mem_filter.mpr ⟨ha, beq_iff_eq.mpr hs⟩

/-- What is required is attempted. -/
theorem Met.exists_attempt {outputDir : Path} {ds : List Demand} {as : List Attempt}
    (h : Met outputDir ds as) {d : Demand} (hd : d ∈ ds) :
    ∃ t, d.attempt outputDir t ∈ as := by
  obtain ⟨ts, hlength, -, has⟩ := h
  obtain ⟨i, hi, rfl⟩ := List.mem_iff_getElem.mp hd
  have hts : i < ts.length := hlength ▸ hi
  refine ⟨ts[i], List.mem_of_mem_filter (p := (·.template.any Template.isOfAssociation)) ?_⟩
  rw [has]
  refine List.mem_iff_getElem.mpr ⟨i, ?_, List.getElem_zipWith⟩
  rw [List.length_zipWith]
  exact lt_min hi hts

theorem Met.exists_firstFor {outputDir : Path} {es : List Entity} {as : List Attempt}
    (h : Met outputDir (required es) as) {e : Entity} (he : e ∈ es.filter (·.isRelational))
    {a : Association} (ha : a ∈ e.associations.implicit.members) (hs : a.shape = .belongsToMany) :
    ∃ (first : Demand) (t : Moment), FirstFor (declared es) ⟨e, a⟩ first ∧
      first.attempt outputDir t ∈ as := by
  obtain ⟨first, hfirst⟩ := Demand.exists_firstFor (mem_declared he ha hs) (beq_iff_eq.mpr hs)
  obtain ⟨t, ht⟩ := h.exists_attempt hfirst.mem
  exact ⟨first, t, hfirst, ht⟩

end Demand

/-- **Join tables of several declarers**, in any run without failures. Of the implicit many-to-many
    associations with one join table the first makes it, in a migration of its own, and each is
    declared in the model of its entity. Such a declaration is kept exactly if its key is that of
    the first one's target and its table, too, or else its key and its table are those of the
    first one's owner. So the first is kept itself if its keys differ, and so is the other side of
    it, if both are told the same key for that side or none. -/
theorem join_tables_keep_iff {σ : Type} {settings : Settings} {clock : Clock} {writer : Writer σ}
    {s : Stamper} {state : σ} {batch : List Loaded} {r : Report}
    (hg : settings.generateMigrations = true)
    (hrun : (run settings clock writer s state batch).1 = some r) (hr : r.isSuccess = true) :
    ∃ as, (attempts settings clock s batch).1 = some as ∧ r.written = as.map Attempt.path ∧
      Demand.Met settings.outputDir (Demand.required (assembled settings.policy batch)) as ∧
      ∀ e ∈ relational settings batch, ∃ m, Model.of e = .ok m ∧
        (⟨some .model, settings.outputDir.site (modelsDir, e.file), .ok m.text⟩ : Attempt) ∈ as ∧
        ∀ a ∈ e.associations.implicit.members, a.shape = .belongsToMany →
          Model.Call.of e a ∈ m.calls ∧
          ∃ (first : Demand) (t : Moment),
            Demand.FirstFor (Demand.declared (assembled settings.policy batch)) ⟨e, a⟩ first ∧
            first.attempt settings.outputDir t ∈ as ∧
            first.migration.created? = some a.keysIn ∧
            (Demand.KeptBy ⟨e, a⟩ first ↔
              (e.keyOr a.spec.sourceKey = first.association.otherKey ∧
                e.table = first.association.targetLcPl) ∨
              (e.keyOr a.spec.sourceKey ≠ first.association.otherKey ∧
                e.keyOr a.spec.sourceKey = first.owner.keyOr first.association.spec.sourceKey ∧
                e.table = first.owner.table)) ∧
            (first = ⟨e, a⟩ → e.keyOr a.spec.sourceKey ≠ a.otherKey →
              Demand.KeptBy ⟨e, a⟩ first) ∧
            (first.association.targetLc = e.nameLc →
              a.spec.sourceKey = first.association.spec.targetKey →
              Demand.KeptBy ⟨e, a⟩ first) := by
  obtain ⟨as, ts, has, hwritten, hnamed, htext⟩ := exists_named_of_success hrun hr
  have hmet := Demand.met_of_attempts hg has
  refine ⟨as, has, hwritten, hmet, fun e he => ?_⟩
  have hmodel := hnamed.model_mem he
  obtain ⟨text, hcontent⟩ := htext _ hmodel
  obtain ⟨m, hm, -⟩ := map_eq_ok_iff.mp hcontent
  rw [hm] at hmodel
  refine ⟨m, hm, hmodel, fun a ha hs => ⟨Model.call_mem hm ha, ?_⟩⟩
  obtain ⟨first, t, hfirst, ht⟩ := hmet.exists_firstFor he ha hs
  refine ⟨first, t, hfirst, ht, hfirst.created, Demand.keptBy_iff hfirst.sameTable, ?_,
    fun hname hkey => Demand.keptBy_of_mirrored hfirst.sameTable hname hkey⟩
  rintro rfl hkeys
  exact Demand.keptBy_self (beq_iff_eq.mpr hs) hkeys

/-- Books with authors, and persons with the books they have written, by a key of their own. -/
def authorship (personKey : String) : List Loaded :=
  [⟨⟨"book.json"⟩, .ok
      { name := "Book", storage := .sql, attributes := .ofList [("title", "String")]
        associations := .ofList
          [("authors", { kind := "sql_belongsToMany", target := "Person", targetStorage := .sql
                         targetKey := some "personId", keysIn := some "books_to_people" })]
        indices := [] }⟩,
    ⟨⟨"person.json"⟩, .ok
      { name := "Person", storage := .sql, attributes := .ofList [("name", "String")]
        associations := .ofList
          [("books", { kind := "sql_belongsToMany", target := "Book", targetStorage := .sql
                       sourceKey := some personKey, targetKey := some "bookId"
                       keysIn := some "books_to_people" })]
        indices := [] }⟩]

/-- Books and persons agree on what a person is called in their join table. -/
theorem join_tables_keep_iff_sample :
    ∃ r as, (run {} frozenClock Writer.dry Stamper.new () (authorship "personId")).1 = some r ∧
      r.isSuccess = true ∧
      (attempts {} frozenClock Stamper.new (authorship "personId")).1 = some as ∧
      (relational {} (authorship "personId")).map Entity.name = ["Book", "Person"] ∧
      ∀ e ∈ relational {} (authorship "personId"), ∀ a ∈ e.associations.implicit.members,
        a.shape = .belongsToMany ∧
        ∃ (first : Demand) (t : Moment), first.owner.name = "Book" ∧
          first.attempt (Settings.outputDir {}) t ∈ as ∧ Demand.KeptBy ⟨e, a⟩ first := by
  have hsuccess : (run {} frozenClock Writer.dry Stamper.new ()
      (authorship "personId")).1.map Report.isSuccess = some true := by decide +kernel
  have hlaw : ∀ e ∈ relational {} (authorship "personId"),
      ∀ a ∈ e.associations.implicit.members, a.shape = .belongsToMany ∧
        ∀ first ∈ (Demand.declared (assembled .reject (authorship "personId"))).find?
            (Demand.sameTable ⟨e, a⟩),
          first.owner.name = "Book" ∧
          ((e.keyOr a.spec.sourceKey = first.association.otherKey ∧
              e.table = first.association.targetLcPl) ∨
            (e.keyOr a.spec.sourceKey ≠ first.association.otherKey ∧
              e.keyOr a.spec.sourceKey = first.owner.keyOr first.association.spec.sourceKey ∧
              e.table = first.owner.table)) := by decide +kernel
  obtain ⟨r, hrun, hr⟩ := Option.map_eq_some_iff.mp hsuccess
  obtain ⟨as, has, -, -, hmodels⟩ := join_tables_keep_iff rfl hrun hr
  refine ⟨r, as, hrun, hr, has, by decide +kernel, fun e he a ha => ?_⟩
  obtain ⟨hs, hfirsts⟩ := hlaw e he a ha
  obtain ⟨m, -, -, hcalls⟩ := hmodels e he
  obtain ⟨-, first, t, hfirst, ht, -, hkept, -⟩ := hcalls a ha hs
  obtain ⟨hname, hagree⟩ := hfirsts first hfirst.found
  exact ⟨hs, first, t, hname, ht, hkept.mpr hagree⟩

/-- Nothing compares the later declaration with the first: the model of persons can use a key that
    the join table does not have. -/
theorem not_always_kept :
    ∃ r as, (run {} frozenClock Writer.dry Stamper.new () (authorship "readerId")).1 = some r ∧
      r.isSuccess = true ∧
      (attempts {} frozenClock Stamper.new (authorship "readerId")).1 = some as ∧
      ∃ e ∈ relational {} (authorship "readerId"), ∃ a ∈ e.associations.implicit.members,
        a.shape = .belongsToMany ∧ (Model.Call.of e a).foreignKey = "readerId" ∧
        ∃ (first : Demand) (t : Moment),
          Demand.FirstFor (Demand.declared (assembled .reject (authorship "readerId")))
            ⟨e, a⟩ first ∧
          first.attempt (Settings.outputDir {}) t ∈ as ∧
          first.migration.columns.map Prod.snd =
            ["id", "createdAt", "updatedAt", "bookId", "personId"] ∧
          ¬ Demand.KeptBy ⟨e, a⟩ first := by
  have hsuccess : (run {} frozenClock Writer.dry Stamper.new ()
      (authorship "readerId")).1.map Report.isSuccess = some true := by decide +kernel
  have hdeclared : ∃ e ∈ relational {} (authorship "readerId"),
      ∃ a ∈ e.associations.implicit.members,
        a.shape = .belongsToMany ∧ (Model.Call.of e a).foreignKey = "readerId" ∧
        ∀ first ∈ (Demand.declared (assembled .reject (authorship "readerId"))).find?
            (Demand.sameTable ⟨e, a⟩),
          first.migration.columns.map Prod.snd =
            ["id", "createdAt", "updatedAt", "bookId", "personId"] ∧
          ¬ Demand.KeptBy ⟨e, a⟩ first := by decide +kernel
  obtain ⟨r, hrun, hr⟩ := Option.map_eq_some_iff.mp hsuccess
  obtain ⟨as, -, has, -⟩ := exists_named_of_success hrun hr
  obtain ⟨e, he, a, ha, hs, hkey, hcolumns⟩ := hdeclared
  obtain ⟨first, t, hfirst, ht⟩ := (Demand.met_of_attempts rfl has).exists_firstFor he ha hs
  obtain ⟨hnames, hnot⟩ := hcolumns first hfirst.found
  exact ⟨r, as, hrun, hr, has, e, he, a, ha, hs, hkey, first, t, hfirst, ht, hnames, hnot⟩

end Scaffold
