import Scaffold.Proofs.Run.Count
import Scaffold.Proofs.Run.Writes

/-!
# What associations ask for

  An implicit association that belongs to one record asks for a column, and one
  that joins many records for a table of its own. The demands of the relational
  entities stand in a row, and a run meets each of them that does not ask for a
  join table for which an earlier one asks. The requests of a run are computed
  with a list of join tables that grows along the entities; what carries the
  proof is that this list always holds the tables of the demands before.
-/

namespace Scaffold

open Stamper

/-! ## Demands -/

/-- An association that asks for a migration, with the entity that declares it. -/
structure Demand where
  owner : Entity
  association : Association
  deriving DecidableEq

/-- The demands of an entity: its columns, then its join tables, both as declared. -/
def Entity.demands (e : Entity) : List Demand :=
  (e.associations.implicit.ofShape .belongsTo ++
    e.associations.implicit.ofShape .belongsToMany).map (Demand.mk e)

/-- Templates for the migrations of associations. -/
def Template.isOfAssociation : Template → Bool
  | associationMigration | throughMigration => true
  | _ => false

namespace Demand

section One

variable (d : Demand)

/-- The demand is for a join table. -/
def isJoin : Bool := d.association.shape == .belongsToMany

/-- Both demands are for one join table. -/
def sameTable (d' : Demand) : Bool :=
  d.isJoin && d'.isJoin && d.association.keysIn == d'.association.keysIn

/-- The migration that meets the demand. -/
def migration : Migration :=
  if d.isJoin then .joinTable d.owner d.association else .column d.owner d.association

/-- What the file of the migration is called behind its stamp. -/
def discriminator : String :=
  if d.isJoin then s!"z-through-{d.association.keysIn}"
  else s!"z-column-{d.association.targetKey}-to-{d.owner.table}"

/-- The template for the migration. -/
def template : Template := if d.isJoin then .throughMigration else .associationMigration

/-- The attempt to write the migration with the stamp of that time. -/
def attempt (outputDir : Path) (t : Moment) : Attempt :=
  ⟨some d.template, pathFor outputDir t d.discriminator, .ok d.migration.text⟩

/-- The request for the migration. -/
def request : Request :=
  ⟨some d.template, .stamped d.discriminator, .ok d.migration.text⟩

end One

/-- The join tables for which demands ask, as often as they do. -/
def tables (ds : List Demand) : List String := (ds.filter isJoin).map (·.association.keysIn)

/-- The demands among `ds` that are not for the table of an earlier one, be it among `ds` or among
    those before. -/
def unmet (before ds : List Demand) : List Demand :=
  (ds.zipIdx.filter fun p => !(before ++ ds.take p.2).any p.1.sameTable).map Prod.fst

/-- The demands of relational entities, entity by entity. -/
def declared (es : List Entity) : List Demand :=
  (es.filter (·.isRelational)).flatMap Entity.demands

/-- The demands that a run on these entities has to meet. -/
def required (es : List Entity) : List Demand := unmet [] (declared es)

/-! ## Demands in a row -/

theorem unmet_cons (before : List Demand) (d : Demand) (ds : List Demand) :
    unmet before (d :: ds) =
      (if before.any d.sameTable then [] else [d]) ++ unmet (before ++ [d]) ds := by
  have hshift : ((ds.zipIdx 1).filter fun p =>
      !(before ++ (d :: ds).take p.2).any p.1.sameTable).map Prod.fst =
        unmet (before ++ [d]) ds := by
    rw [List.zipIdx_succ, List.filter_map, List.map_map]
    simp [unmet, Function.comp_def]
  rw [unmet, List.zipIdx_cons, List.filter_cons, List.take_zero, List.append_nil]
  cases before.any d.sameTable with
  | true => exact hshift
  | false => exact congrArg (d :: ·) hshift

theorem unmet_append (before ds ds' : List Demand) :
    unmet before (ds ++ ds') = unmet before ds ++ unmet (before ++ ds) ds' := by
  induction ds generalizing before with
  | nil => rw [List.append_nil]; rfl
  | cons d ds ih =>
      rw [List.cons_append, unmet_cons, unmet_cons, ih, List.append_assoc, List.append_assoc]
      rfl

theorem mem_unmet_iff {before ds : List Demand} {d : Demand} :
    d ∈ unmet before ds ↔
      ∃ front rest, ds = front ++ d :: rest ∧ (before ++ front).any d.sameTable = false := by
  induction ds generalizing before with
  | nil =>
      constructor
      · exact nofun
      · rintro ⟨front, rest, h, -⟩
        exact nomatch List.append_eq_nil_iff.mp h.symm
  | cons c ds ih =>
      rw [unmet_cons, List.mem_append, ih]
      constructor
      · rintro (h | ⟨front, rest, rfl, hfront⟩)
        · cases hc : before.any c.sameTable with
          | true => rw [hc] at h; exact nomatch h
          | false =>
              rw [hc] at h
              obtain rfl := List.mem_singleton.mp h
              exact ⟨[], ds, rfl, by rw [List.append_nil]; exact hc⟩
        · refine ⟨c :: front, rest, rfl, ?_⟩
          rw [List.append_assoc] at hfront
          exact hfront
      · rintro ⟨front, rest, h, hfront⟩
        cases front with
        | nil =>
            obtain ⟨rfl, -⟩ := List.cons.inj h
            rw [List.append_nil] at hfront
            rw [hfront]
            exact Or.inl List.mem_cons_self
        | cons b front =>
            obtain ⟨rfl, hds⟩ := List.cons.inj h
            refine Or.inr ⟨front, rest, hds, ?_⟩
            rw [List.append_assoc]
            exact hfront

/-- No demand that is left asks for the table of one that stands before it. -/
theorem pairwise_unmet (before ds : List Demand) :
    (unmet before ds).Pairwise fun d d' => d'.sameTable d = false := by
  induction ds generalizing before with
  | nil => exact List.Pairwise.nil
  | cons d ds ih =>
      rw [unmet_cons]
      cases before.any d.sameTable with
      | true => exact ih (before ++ [d])
      | false =>
          refine List.pairwise_cons.mpr ⟨fun d' hd' => ?_, ih (before ++ [d])⟩
          obtain ⟨front, rest, -, hnone⟩ := mem_unmet_iff.mp hd'
          rw [List.any_eq_false] at hnone
          exact Bool.eq_false_iff.mpr (hnone d (by simp))

/-- A demand that is not for a join table shares none. -/
theorem any_sameTable_eq_false (before : List Demand) {d : Demand} (h : d.isJoin = false) :
    before.any d.sameTable = false :=
  List.any_eq_false.mpr fun d' _ => by simp [sameTable, h]

theorem unmet_of_not_isJoin {ds : List Demand} (h : ∀ d ∈ ds, d.isJoin = false)
    (before : List Demand) : unmet before ds = ds := by
  induction ds generalizing before with
  | nil => rfl
  | cons d ds ih =>
      obtain ⟨hd, hds⟩ := List.forall_mem_cons.mp h
      rw [unmet_cons, any_sameTable_eq_false before hd, ih hds]
      rfl

theorem filter_not_isJoin_unmet (before ds : List Demand) :
    (unmet before ds).filter (!·.isJoin) = ds.filter (!·.isJoin) := by
  induction ds generalizing before with
  | nil => rfl
  | cons d ds ih =>
      rw [unmet_cons, List.filter_append, ih, List.filter_cons]
      cases hd : d.isJoin with
      | true => cases before.any d.sameTable <;> simp [hd]
      | false =>
          rw [any_sameTable_eq_false before hd]
          simp [hd]

/-! ## Join tables -/

theorem mem_tables_iff {ds : List Demand} {table : String} :
    table ∈ tables ds ↔ ∃ d ∈ ds, d.isJoin = true ∧ d.association.keysIn = table := by
  simp [tables, and_assoc]

theorem tables_append (ds ds' : List Demand) : tables (ds ++ ds') = tables ds ++ tables ds' := by
  rw [tables, List.filter_append, List.map_append]
  rfl

theorem any_sameTable_eq_true_iff {before : List Demand} {d : Demand} (h : d.isJoin = true) :
    before.any d.sameTable = true ↔ d.association.keysIn ∈ tables before := by
  rw [List.any_eq_true, mem_tables_iff]
  refine exists_congr fun d' => and_congr_right fun _ => ?_
  rw [sameTable, h, Bool.true_and, Bool.and_eq_true, beq_iff_eq]
  exact and_congr_right fun _ => eq_comm

theorem sameTable_self {d : Demand} (h : d.isJoin = true) : d.sameTable d = true := by
  simp [sameTable, h]

/-- The demands `rs` bring every join table for which `ds` ask once, as the first of them has it,
    and all other things for which they ask. -/
structure TablesOnce (ds rs : List Demand) : Prop where
  once : ∀ table, (tables rs).count table = if table ∈ tables ds then 1 else 0
  first : ∀ d ∈ rs, d.isJoin = true → ds.find? d.sameTable = some d
  others : rs.filter (!·.isJoin) = ds.filter (!·.isJoin)

theorem find?_of_mem_unmet {ds : List Demand} {d : Demand} (h : d ∈ unmet [] ds)
    (hjoin : d.isJoin = true) : ds.find? d.sameTable = some d := by
  obtain ⟨front, rest, hds, hnone⟩ := mem_unmet_iff.mp h
  rw [List.nil_append, List.any_eq_false] at hnone
  refine List.find?_eq_some_iff_append.mpr ⟨sameTable_self hjoin, front, rest, hds, ?_⟩
  exact fun d' hd' => by simpa using hnone d' hd'

/-- Of the demands for a table, the first one is left. -/
theorem exists_mem_unmet {ds : List Demand} {d : Demand} (h : d ∈ ds) (hjoin : d.isJoin = true) :
    ∃ d' ∈ unmet [] ds, d'.isJoin = true ∧ d'.association.keysIn = d.association.keysIn := by
  obtain ⟨d', hd'⟩ := Option.isSome_iff_exists.mp
    (List.find?_isSome.mpr ⟨d, h, sameTable_self hjoin⟩)
  obtain ⟨hsame, front, rest, hds, hnone⟩ := List.find?_eq_some_iff_append.mp hd'
  rw [sameTable, hjoin, Bool.true_and, Bool.and_eq_true, beq_iff_eq] at hsame
  refine ⟨d', mem_unmet_iff.mpr ⟨front, rest, hds, ?_⟩, hsame.1, hsame.2.symm⟩
  refine List.any_eq_false.mpr fun c hc => ?_
  -- a demand for the table of `d'` is one for the table of `d`
  have hno := hnone c hc
  rw [Bool.not_eq_true', ← Bool.not_eq_true, sameTable, hjoin] at hno
  rw [sameTable, hsame.1, ← hsame.2]
  exact hno

theorem tablesOnce_unmet (ds : List Demand) : TablesOnce ds (unmet [] ds) where
  once table := by
    have hnodup : (tables (unmet [] ds)).Nodup := by
      rw [tables, List.Nodup, List.pairwise_map, List.pairwise_filter]
      refine (pairwise_unmet [] ds).imp fun {d d'} hd hjoin hjoin' heq => ?_
      rw [sameTable, hjoin, hjoin', heq] at hd
      simp at hd
    have hmem : table ∈ tables (unmet [] ds) ↔ table ∈ tables ds := by
      rw [mem_tables_iff, mem_tables_iff]
      constructor
      · rintro ⟨d, hd, hjoin, htable⟩
        obtain ⟨front, rest, rfl, -⟩ := mem_unmet_iff.mp hd
        exact ⟨d, List.mem_append_right front List.mem_cons_self, hjoin, htable⟩
      · rintro ⟨d, hd, hjoin, rfl⟩
        exact exists_mem_unmet hd hjoin
    rw [hnodup.count]
    simp only [hmem]
  first _ hd hjoin := find?_of_mem_unmet hd hjoin
  others := filter_not_isJoin_unmet [] ds

/-! ## Requests -/

theorem request_of_column (e : Entity) {a : Association} (h : a.shape = .belongsTo) :
    request ⟨e, a⟩ = Request.ofColumn e a := by
  simp [request, template, discriminator, migration, isJoin, h, Request.ofColumn,
    Request.rendered, Template.render]

theorem request_of_join (e : Entity) {a : Association} (h : a.shape = .belongsToMany) :
    request ⟨e, a⟩ = Request.ofJoinTable e a := by
  simp [request, template, discriminator, migration, isJoin, h, Request.ofJoinTable,
    Request.rendered, Template.render]

theorem isJoin_of_column (e : Entity) {as : List Association}
    (has : ∀ a ∈ as, a.shape = .belongsTo) : ∀ d ∈ as.map (mk e), d.isJoin = false := by
  intro d hd
  obtain ⟨a, ha, rfl⟩ := List.mem_map.mp hd
  rw [isJoin, has a ha]
  rfl

theorem tables_columns (e : Entity) {as : List Association} (has : ∀ a ∈ as, a.shape = .belongsTo) :
    tables (as.map (mk e)) = [] := by
  rw [tables, List.filter_eq_nil_iff.mpr fun d hd => by simp [isJoin_of_column e has d hd]]
  rfl

theorem tables_joins (e : Entity) {as : List Association}
    (has : ∀ a ∈ as, a.shape = .belongsToMany) :
    tables (as.map (mk e)) = as.map Association.keysIn := by
  have hall : ∀ d ∈ as.map (mk e), d.isJoin = true := by
    intro d hd
    obtain ⟨a, ha, rfl⟩ := List.mem_map.mp hd
    exact beq_iff_eq.mpr (has a ha)
  rw [tables, List.filter_eq_self.mpr hall, List.map_map]
  rfl

/-- As long as the tables of the demands before are known, the new joins are those for which no
    demand before asks. -/
theorem map_newJoins (e : Entity) {known : List String} {before : List Demand}
    {as : List Association} (has : ∀ a ∈ as, a.shape = .belongsToMany)
    (hknown : ∀ k, k ∈ known ↔ k ∈ tables before) :
    (Request.newJoins known as).map (mk e) = unmet before (as.map (mk e)) := by
  induction as generalizing known before with
  | nil => rfl
  | cons a as ih =>
      obtain ⟨ha, has⟩ := List.forall_mem_cons.mp has
      have hjoin : isJoin ⟨e, a⟩ = true := beq_iff_eq.mpr ha
      have hany : before.any (sameTable ⟨e, a⟩) = true ↔ a.keysIn ∈ known :=
        (any_sameTable_eq_true_iff hjoin).trans (hknown a.keysIn).symm
      have hafter : ∀ k, k ∈ tables (before ++ [⟨e, a⟩]) ↔ k ∈ known ∨ k = a.keysIn := by
        intro k
        have htable : tables [⟨e, a⟩] = [a.keysIn] :=
          tables_joins e (List.forall_mem_singleton.mpr ha)
        rw [tables_append, htable, List.mem_append, List.mem_singleton, ← hknown k]
      rw [Request.newJoins, List.map_cons, unmet_cons]
      by_cases hmem : a.keysIn ∈ known
      · rw [if_pos hmem, if_pos (hany.mpr hmem), List.nil_append]
        refine ih has fun k => ?_
        rw [hafter]
        exact ⟨Or.inl, fun h => h.elim id fun hk => hk ▸ hmem⟩
      · rw [if_neg hmem, if_neg (mt hany.mp hmem), List.map_cons, List.singleton_append]
        refine congrArg (_ :: ·) (ih has fun k => ?_)
        rw [hafter, List.mem_cons, or_comm]

/-- The requests for associations are those for the demands that are not met. -/
theorem ofAssociations_eq {known : List String} {before : List Demand} {es : List Entity}
    (hknown : ∀ k, k ∈ known ↔ k ∈ tables before) :
    Request.ofAssociations known es = (unmet before (es.flatMap Entity.demands)).map request := by
  induction es generalizing known before with
  | nil => rfl
  | cons e es ih =>
      have hcolumns : ∀ a ∈ e.associations.implicit.ofShape .belongsTo, a.shape = .belongsTo :=
        fun a ha => beq_iff_eq.mp (List.mem_filter.mp ha).2
      have hjoins : ∀ a ∈ e.associations.implicit.ofShape .belongsToMany,
          a.shape = .belongsToMany := fun a ha => beq_iff_eq.mp (List.mem_filter.mp ha).2
      rw [Request.ofAssociations, List.flatMap_cons, Entity.demands, List.map_append]
      generalize e.associations.implicit.ofShape .belongsTo = columns at *
      generalize e.associations.implicit.ofShape .belongsToMany = joins at *
      -- columns bring no table, so that the known ones stay those of the demands before
      have hsame : ∀ k, k ∈ known ↔ k ∈ tables (before ++ columns.map (mk e)) := by
        intro k
        rw [tables_append, tables_columns e hcolumns, List.append_nil]
        exact hknown k
      have hafter : ∀ k, k ∈ (Request.newJoins known joins).map Association.keysIn ++ known ↔
          k ∈ tables (before ++ (columns.map (mk e) ++ joins.map (mk e))) := by
        intro k
        rw [List.mem_append, (Request.newJoins_keys known joins).2 k, ← List.append_assoc,
          tables_append, List.mem_append, ← hsame k, tables_joins e hjoins]
        tauto
      rw [unmet_append, unmet_append, unmet_of_not_isJoin (isJoin_of_column e hcolumns),
        ← map_newJoins e hjoins hsame, ih hafter, List.map_append, List.map_append, List.map_map,
        List.map_map]
      congr 2
      · exact List.map_congr_left fun a ha => (request_of_column e (hcolumns a ha)).symm
      · refine List.map_congr_left fun a ha => (request_of_join e (hjoins a ?_)).symm
        exact Request.mem_of_mem_newJoins ha

/-- What is required belongs to a relational entity, as one of its implicit associations. -/
theorem mem_required {es : List Entity} {d : Demand} (h : d ∈ required es) :
    d.owner ∈ es ∧ d.owner.isRelational = true ∧
      d.association ∈ d.owner.associations.implicit.members := by
  obtain ⟨front, rest, hds, -⟩ := mem_unmet_iff.mp h
  have hd : d ∈ declared es := hds ▸ List.mem_append_right front List.mem_cons_self
  obtain ⟨e, he, hde⟩ := List.mem_flatMap.mp hd
  obtain ⟨hmem, hrel⟩ := List.mem_filter.mp he
  obtain ⟨a, ha, rfl⟩ := List.mem_map.mp hde
  refine ⟨hmem, hrel, ?_⟩
  rcases List.mem_append.mp ha with ha | ha
  · exact (List.mem_filter.mp ha).1
  · exact (List.mem_filter.mp ha).1

end Demand

namespace Request

variable {settings : Settings}

/-- A request that is no migration, or creates a table, does not belong to an association. -/
theorem not_isOfAssociation {r : Request} (h : (∃ e, r = ofTable e) ∨ ¬ r.IsMigration) :
    r.template.any Template.isOfAssociation = false := by
  rcases h with ⟨e, rfl⟩ | h
  · rfl
  · refine Bool.eq_false_iff.mpr fun hassoc => h ?_
    obtain ⟨t, ht, hof⟩ := (Option.any_eq_true _ _).mp hassoc
    refine ⟨t, ht, ?_⟩
    cases t with
    | associationMigration | throughMigration => rfl
    | _ => exact nomatch hof

/-- The requests of a run for associations are those for what is required. -/
theorem filter_isOfAssociation_all (hg : settings.generateMigrations = true) (es : List Entity) :
    (all settings es).filter (·.template.any Template.isOfAssociation) =
      (Demand.required es).map Demand.request := by
  have hentities :
      (ofEntities settings es).filter (·.template.any Template.isOfAssociation) = [] := by
    rw [List.filter_eq_nil_iff]
    intro r hr
    obtain ⟨e, -, hre⟩ := List.mem_flatMap.mp hr
    rw [not_isOfAssociation ((mem_ofEntity settings hre).imp (fun h => ⟨e, h.1⟩) And.left)]
    exact Bool.false_ne_true
  have hbatch : (ofBatch settings es).filter (·.template.any Template.isOfAssociation) = [] := by
    rw [List.filter_eq_nil_iff]
    intro r hr
    rw [not_isOfAssociation (Or.inr (ofBatch_place settings hr).1)]
    exact Bool.false_ne_true
  have hdeferred : deferred settings es = (Demand.required es).map Demand.request := by
    have hknown : ∀ k, k ∈ ([] : List String) ↔ k ∈ Demand.tables [] := fun _ => Iff.rfl
    rw [deferred, hg, if_pos rfl, Demand.ofAssociations_eq hknown]
    rfl
  have hall : ∀ r ∈ deferred settings es, r.template.any Template.isOfAssociation = true := by
    intro r hr
    obtain ⟨-, owner, -, -, a, -, rfl | rfl⟩ := mem_deferred settings hr <;> rfl
  rw [all_eq, List.filter_append, List.filter_append, hentities, hbatch,
    List.filter_eq_self.mpr hall, hdeferred, List.nil_append, List.append_nil]

end Request

/-! ## Runs -/

namespace Demand

/-- The requests for demands draw a time each. -/
theorem attempts_of_named {outputDir : Path} {ts : List Moment} {ds : List Demand}
    {as : List Attempt} (h : Named outputDir ts (ds.map request) as) :
    ts.length = ds.length ∧ as = List.zipWith (·.attempt outputDir) ds ts := by
  induction ds generalizing ts as with
  | nil =>
      cases h
      exact ⟨rfl, rfl⟩
  | cons d ds ih =>
      rw [List.map_cons] at h
      cases h with
      | fixed hr _ => exact nomatch hr
      | stamped hr hrest =>
          obtain ⟨hlength, rfl⟩ := ih hrest
          cases hr
          exact ⟨congrArg (· + 1) hlength, rfl⟩

/-- The attempts for associations are those that meet the demands, in the same order and under
    increasing stamps. -/
def Met (outputDir : Path) (ds : List Demand) (as : List Attempt) : Prop :=
  ∃ ts : List Moment, ts.length = ds.length ∧ ts.Pairwise (· < ·) ∧
    as.filter (·.template.any Template.isOfAssociation) = List.zipWith (·.attempt outputDir) ds ts

theorem met_of_attempts {settings : Settings} {clock : Clock} {s : Stamper}
    {batch : List Loaded} {as : List Attempt} (hg : settings.generateMigrations = true)
    (h : (attempts settings clock s batch).1 = some as) :
    Met settings.outputDir (required (assembled settings.policy batch)) as := by
  obtain ⟨ts, hdraws, hnamed⟩ := attempts_eq_some h
  obtain ⟨us, hsub, hkept⟩ := hnamed.exists_filter (·.any Template.isOfAssociation)
  rw [requestsOf, Request.filter_isOfAssociation_all hg] at hkept
  obtain ⟨hlength, has⟩ := attempts_of_named hkept
  exact ⟨us, hlength, hdraws.increasing.2.sublist hsub, has⟩

end Demand

/-- **Associations get what they ask for.** What a run requires of its entities has every join
    table once, as its first declarer has it, and the column of every association that belongs to
    one record. A run has an answer as long as the calendar lasts, and each run of a session with
    one stamper attempts for associations what the entities of its own batch require and no more,
    whatever the runs before have attempted and whatever becomes of the writes. -/
theorem association_migrations_required (settings : Settings)
    (hg : settings.generateMigrations = true) :
    (∀ es : List Entity,
      Demand.TablesOnce (Demand.declared es) (Demand.required es) ∧
      ∀ d ∈ Demand.required es, d.owner ∈ es ∧ d.owner.isRelational = true ∧
        d.association ∈ d.owner.associations.implicit.members) ∧
    (∀ (clock : Clock) (s : Stamper) (batch : List Loaded),
      s.Lasts clock (stampsOf settings batch) →
        ∃ as s', attempts settings clock s batch = (some as, s')) ∧
    ∀ (σ : Type) (clock : Clock) (writer : Writer σ) (s : Stamper) (state : σ)
      (batches : List (List Loaded)),
      List.Forall₂ (fun as? batch => ∀ as ∈ as?,
          Demand.Met settings.outputDir (Demand.required (assembled settings.policy batch)) as)
        (session settings clock writer s state batches).1 batches := by
  refine ⟨fun es => ⟨Demand.tablesOnce_unmet (Demand.declared es), fun d => Demand.mem_required⟩,
    fun clock s batch => attempts_of_lasts, fun σ clock writer s state batches => ?_⟩
  induction batches generalizing s state with
  | nil => exact .nil
  | cons batch batches ih =>
      rw [session_cons]
      exact .cons (fun as has => Demand.met_of_attempts hg has) (ih _ _)

/-- Three associations of two entities ask for a column and twice for one join table. The second of
    two runs on them brings the join table again. -/
theorem association_migrations_required_sample :
    Settings.generateMigrations {} = true ∧
    (Demand.declared (assembled .reject sampleBatch)).map Demand.discriminator =
      ["z-column-ownerId-to-books", "z-through-books_to_people", "z-through-books_to_people"] ∧
    (Demand.required (assembled .reject sampleBatch)).map
        (fun d => (d.discriminator, d.owner.name)) =
      [("z-column-ownerId-to-books", "Book"), ("z-through-books_to_people", "Book")] ∧
    ∃ as as', (session {} frozenClock everyOther Stamper.new 0 [sampleBatch, sampleBatch]).1 =
        [some as, some as'] ∧
      Demand.Met (Settings.outputDir {}) (Demand.required (assembled .reject sampleBatch)) as ∧
      Demand.Met (Settings.outputDir {}) (Demand.required (assembled .reject sampleBatch)) as' := by
  refine ⟨rfl, by decide +kernel, by decide +kernel, ?_⟩
  have hsome : ∀ as? ∈ (session {} frozenClock everyOther Stamper.new 0
      [sampleBatch, sampleBatch]).1, as?.isSome = true := by decide +kernel
  have hmet := (association_migrations_required {} rfl).2.2 Nat frozenClock everyOther Stamper.new 0
    [sampleBatch, sampleBatch]
  generalize (session {} frozenClock everyOther Stamper.new 0 [sampleBatch, sampleBatch]).1 =
    runs at hsome hmet ⊢
  obtain ⟨run, runs, hfirst, hrest, rfl⟩ := List.forall₂_cons_right_iff.mp hmet
  obtain ⟨run', runs, hsecond, hnone, rfl⟩ := List.forall₂_cons_right_iff.mp hrest
  obtain rfl := List.forall₂_nil_right_iff.mp hnone
  obtain ⟨as, rfl⟩ := Option.isSome_iff_exists.mp (hsome run (by simp))
  obtain ⟨as', rfl⟩ := Option.isSome_iff_exists.mp (hsome run' (by simp))
  exact ⟨as, as', rfl, hfirst as rfl, hsecond as' rfl⟩

end Scaffold
