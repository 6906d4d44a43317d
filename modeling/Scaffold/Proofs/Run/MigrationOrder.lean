import Mathlib.Data.List.Forall2
import Scaffold.Proofs.Run.Naming

/-!
# The order of migrations over whole sessions

  A session is a number of runs in a row with one stamper and one writer. All
  its migrations together are named in byte order, since their times increase
  from the first run to the last. Within a run the migrations of associations
  are requested behind the tables of all entities, so a migration that refers
  to the table of an entity comes behind the one that creates it.
-/

namespace Scaffold

open Stamper

/-! ## Sessions -/

/-- What runs in a row try to write, with one stamper and one writer for all of them; a run for
    which the calendar ends has no answer. -/
def session {σ : Type} (settings : Settings) (clock : Clock) (writer : Writer σ) :
    Stamper → σ → List (List Loaded) → List (Option (List Attempt)) × Stamper × σ
  | s, state, [] => ([], s, state)
  | s, state, batch :: batches =>
    let (_, s', state') := run settings clock writer s state batch
    let (rest, s'', state'') := session settings clock writer s' state' batches
    ((attempts settings clock s batch).1 :: rest, s'', state'')

/-- A run leaves the stamper as its attempts leave it, whatever comes of the writing. -/
theorem run_stamper {σ : Type} (settings : Settings) (clock : Clock) (writer : Writer σ)
    (s : Stamper) (state : σ) (batch : List Loaded) :
    (run settings clock writer s state batch).2.1 = (attempts settings clock s batch).2 := by
  rw [run]
  cases h : attempts settings clock s batch with
  | mk as s' =>
      cases as with
      | none => rfl
      | some as => rfl

/-- The requests of a run on a batch. -/
def requestsOf (settings : Settings) (batch : List Loaded) : List Request :=
  Request.all settings (assembled settings.policy batch)

theorem attempts_eq_some {settings : Settings} {clock : Clock} {s : Stamper}
    {batch : List Loaded} {as : List Attempt} (h : (attempts settings clock s batch).1 = some as) :
    ∃ ts, Draws clock s ts (attempts settings clock s batch).2 ∧
      Named settings.outputDir ts (requestsOf settings batch) as := by
  rw [attempts] at h ⊢
  obtain ⟨paths, hpaths, rfl⟩ := Option.map_eq_some_iff.mp h
  exact settleAll_some (Prod.ext hpaths rfl)

/-- A run that has no answer has read the clock once more behind its last time. -/
theorem attempts_eq_none {settings : Settings} {clock : Clock} {s : Stamper}
    {batch : List Loaded} (h : (attempts settings clock s batch).1 = none) :
    ∃ ts s₁, Draws clock s ts s₁ ∧ s₁.last = some Moment.latest ∧
      (attempts settings clock s batch).2.reads = s₁.reads + 1 := by
  rw [attempts] at h ⊢
  obtain ⟨ts, s₁, hdraws, hnext⟩ := settleAll_none (Prod.ext (Option.map_eq_none_iff.mp h) rfl)
  have hfst : (s₁.next clock).1 = none := by rw [hnext]
  rw [next_fst, timeAfter_eq_none_iff] at hfst
  refine ⟨ts, s₁, hdraws, hfst, ?_⟩
  rw [← next_reads clock s₁, hnext]

/-- Whatever comes of a run, it does not take readings back. -/
theorem attempts_reads_le (settings : Settings) (clock : Clock) (s : Stamper)
    (batch : List Loaded) : s.reads ≤ (attempts settings clock s batch).2.reads := by
  cases h : (attempts settings clock s batch).1 with
  | some as =>
      obtain ⟨ts, hdraws, -⟩ := attempts_eq_some h
      rw [hdraws.reads]
      exact Nat.le_add_right _ _
  | none =>
      obtain ⟨ts, s₁, hdraws, -, hreads⟩ := attempts_eq_none h
      rw [hreads, hdraws.reads]
      omega

theorem session_cons {σ : Type} (settings : Settings) (clock : Clock) (writer : Writer σ)
    (s : Stamper) (state : σ) (batch : List Loaded) (batches : List (List Loaded)) :
    session settings clock writer s state (batch :: batches) =
      let rest := session settings clock writer (attempts settings clock s batch).2
        (run settings clock writer s state batch).2.2 batches
      ((attempts settings clock s batch).1 :: rest.1, rest.2) := by
  rw [← run_stamper settings clock writer s state batch]
  rfl

theorem session_reads_le {σ : Type} (settings : Settings) (clock : Clock) (writer : Writer σ)
    (s : Stamper) (state : σ) (batches : List (List Loaded)) :
    s.reads ≤ (session settings clock writer s state batches).2.1.reads := by
  induction batches generalizing s state with
  | nil => exact Nat.le_refl _
  | cons batch batches ih =>
      rw [session_cons]
      exact (attempts_reads_le settings clock s batch).trans (ih _ _)

/-- A session whose times are all of plain years does not reach the end of the calendar. Every
    run has an answer, and the runs draw their times in a row. -/
theorem session_named {σ : Type} {settings : Settings} {clock : Clock} {writer : Writer σ}
    {s : Stamper} {state : σ} {batches : List (List Loaded)} {k : Nat}
    (hlast : s.last ≠ some Moment.latest)
    (hk : (session settings clock writer s state batches).2.1.reads = s.reads + k)
    (hplain : ∀ t ∈ s.issued clock k, t.HasPlainYear) :
    ∃ (runs : List (List Attempt)) (ts : List Moment),
      (session settings clock writer s state batches).1 = runs.map some ∧
      Draws clock s ts (session settings clock writer s state batches).2.1 ∧
      Named settings.outputDir ts (batches.flatMap (requestsOf settings)) runs.flatten ∧
      List.Forall₂ (fun as batch => ∃ us, Named settings.outputDir us (requestsOf settings batch) as)
        runs batches := by
  induction batches generalizing s state k with
  | nil => exact ⟨[], [], rfl, .nil s, .nil, .nil⟩
  | cons batch batches ih =>
      rw [session_cons] at hk ⊢
      have hreads := session_reads_le settings clock writer (attempts settings clock s batch).2
        (run settings clock writer s state batch).2.2 batches
      rw [show (session settings clock writer (attempts settings clock s batch).2
        (run settings clock writer s state batch).2.2 batches).2.1.reads = s.reads + k from hk]
        at hreads
      cases has : (attempts settings clock s batch).1 with
      | none =>
          -- such a run would have come to the last moment, which is of no plain year
          obtain ⟨ts, s₁, hdraws, hend, hone⟩ := attempts_eq_none has
          have hissued := hdraws.mem_issued (Nat.le_trans (by omega) hreads)
          exact absurd hend (hdraws.last_ne_latest hlast fun t ht => hplain t (hissued t ht))
      | some as =>
          obtain ⟨ts, hdraws, hnamed⟩ := attempts_eq_some has
          have hissued := hdraws.mem_issued hreads
          have hlast' := hdraws.last_ne_latest hlast fun t ht => hplain t (hissued t ht)
          obtain ⟨k', rfl⟩ : ∃ k', k = ts.length + k' := by
            rw [hdraws.reads] at hreads
            exact ⟨k - ts.length, by omega⟩
          obtain ⟨runs, us, hruns, hdraws', hnamed', hall⟩ :=
            ih hlast' (by rw [hdraws.reads, Nat.add_assoc]; exact hk)
              fun t ht => hplain t (hdraws.issued_subset k' ht)
          refine ⟨as :: runs, ts ++ us, ?_, hdraws.append hdraws', hnamed.append hnamed',
            .cons ⟨ts, hnamed⟩ hall⟩
          show some as :: _ = some as :: runs.map some
          rw [hruns]

/-! ## The order within a run -/

/-- The attempt is a migration of an association. -/
def Attempt.IsAssociationMigration (a : Attempt) : Prop :=
  a.template = some .associationMigration ∨ a.template = some .throughMigration

/-- A migration of the run that creates the table of `e` stands before the attempt `b`. -/
def CreatedBefore (as : List Attempt) (e : Entity) (b : Attempt) : Prop :=
  ∃ c ∈ as, c.template = some .migration ∧ c.content = (Migration.table e).map Migration.text ∧
    c.path.Precedes b.path

/-- The migrations of a run on these entities stand in the order in which they can be applied. -/
structure InOrder (entities : List Entity) (as : List Attempt) : Prop where
  /-- The migrations of associations stand behind those of all tables. -/
  tables_first : ∀ a ∈ as, ∀ b ∈ as, a.template = some .migration → b.IsAssociationMigration →
    a.path.Precedes b.path
  /-- Every migration of an association refers to the table of its owner and to that of its target.
      The first one is created before, and so is the second one if an entity has that name. -/
  tables_before : ∀ b ∈ as, b.IsAssociationMigration →
    ∃ owner ∈ entities, ∃ a ∈ owner.associations.implicit.members, ∃ m : Migration,
      (b.template = some .associationMigration ∧ m = Migration.column owner a ∨
        b.template = some .throughMigration ∧ m = Migration.joinTable owner a) ∧
      b.content = .ok m.text ∧ m.refersTo = [owner.table, a.targetLcPl] ∧
      CreatedBefore as owner b ∧
      ∀ e ∈ entities, e.isRelational = true →
        Naming.uncapitalize a.target = Naming.uncapitalize e.name →
        e.table = a.targetLcPl ∧ CreatedBefore as e b

theorem Attempt.IsAssociationMigration.isMigration {b : Attempt}
    (h : b.IsAssociationMigration) : b.IsMigration := by
  rcases h with h | h <;> exact ⟨_, h, rfl⟩

namespace Named

variable {settings : Settings} {outputDir : Path} {entities : List Entity} {ts : List Moment}
  {as : List Attempt}

/-- Among the artifacts of entities no migration belongs to an association. -/
theorem not_isAssociationMigration
    (h : Named outputDir ts (Request.ofEntities settings entities) as) {a : Attempt}
    (ha : a ∈ as) : ¬ a.IsAssociationMigration := by
  intro hassoc
  obtain ⟨r, hr, hat, -⟩ := h.exists_request ha
  obtain ⟨e, -, hre⟩ := List.mem_flatMap.mp hr
  rw [hat] at hassoc
  rcases Request.mem_ofEntity settings hre with ⟨rfl, -, -⟩ | ⟨hno, -⟩
  · rcases hassoc with hassoc | hassoc <;> exact nomatch hassoc
  · exact absurd hassoc.isMigration hno

/-- A deferred migration does not create the table of an entity. -/
theorem template_ne_migration (h : Named outputDir ts (Request.deferred settings entities) as)
    {a : Attempt} (ha : a ∈ as) : a.template ≠ some .migration := by
  intro htemplate
  obtain ⟨r, hr, hat, -⟩ := h.exists_request ha
  obtain ⟨-, owner, -, -, b, -, hrb⟩ := Request.mem_deferred settings hr
  rw [hat] at htemplate
  rcases hrb with rfl | rfl <;> exact nomatch htemplate

/-- The files of the batch are no migrations. -/
theorem not_isMigration (h : Named outputDir ts (Request.ofBatch settings entities) as)
    {a : Attempt} (ha : a ∈ as) : ¬ a.IsMigration := by
  intro hmigration
  obtain ⟨r, hr, hat, -⟩ := h.exists_request ha
  rw [hat] at hmigration
  exact absurd hmigration (Request.ofBatch_place settings hr).1

end Named

/-- Requests whose migrations are named in order put the tables first. -/
theorem inOrder_of_named {settings : Settings} {entities : List Entity} {ts : List Moment}
    {as : List Attempt} (h : Named settings.outputDir ts (Request.all settings entities) as)
    (hsorted : as.Pairwise fun a b => a.IsMigration → b.IsMigration → a.path.Precedes b.path) :
    InOrder entities as := by
  rw [Request.all_eq, List.append_assoc] at h
  obtain ⟨ts₁, ts', tables, rest, rfl, htables, hrest⟩ := h.split
  obtain ⟨ts₂, ts₃, joins, shared, rfl, hjoins, hshared⟩ := hrest.split
  have hbefore := (List.pairwise_append.mp hsorted).2.2
  -- a migration of an association is in the second part, the creation of a table in the first
  have hjoin : ∀ b ∈ tables ++ (joins ++ shared), b.IsAssociationMigration → b ∈ joins := by
    intro b hb hassoc
    rcases List.mem_append.mp hb with hb | hb
    · exact absurd hassoc (htables.not_isAssociationMigration hb)
    · rcases List.mem_append.mp hb with hb | hb
      · exact hb
      · exact absurd hassoc.isMigration (hshared.not_isMigration hb)
  have htable : ∀ a ∈ tables ++ (joins ++ shared), a.template = some .migration → a ∈ tables := by
    intro a ha htemplate
    rcases List.mem_append.mp ha with ha | ha
    · exact ha
    · rcases List.mem_append.mp ha with ha | ha
      · exact absurd htemplate (hjoins.template_ne_migration ha)
      · exact absurd ⟨_, htemplate, rfl⟩ (hshared.not_isMigration ha)
  have hcreated : ∀ e ∈ entities, e.isRelational = true → settings.generateMigrations = true →
      ∀ b ∈ joins, b.IsAssociationMigration → CreatedBefore (tables ++ (joins ++ shared)) e b := by
    intro e he hrel hg b hb hassoc
    have hrequest : Request.ofTable e ∈ Request.ofEntities settings entities :=
      List.mem_flatMap.mpr ⟨e, he, Request.ofTable_mem settings hg hrel⟩
    obtain ⟨path, hpath⟩ := htables.exists_attempt hrequest
    exact ⟨_, List.mem_append_left _ hpath, rfl, rfl,
      hbefore _ hpath b (List.mem_append_left _ hb) ⟨_, rfl, rfl⟩ hassoc.isMigration⟩
  refine ⟨?_, ?_⟩
  · intro a ha b hb htemplate hassoc
    exact hbefore a (htable a ha htemplate) b (List.mem_append_left _ (hjoin b hb hassoc))
      ⟨_, htemplate, rfl⟩ hassoc.isMigration
  · intro b hb hassoc
    have hbj := hjoin b hb hassoc
    obtain ⟨r, hr, hat, -⟩ := hjoins.exists_request hbj
    obtain ⟨hg, owner, howner, hrel, a, ha, hra⟩ := Request.mem_deferred settings hr
    have hboth : CreatedBefore (tables ++ (joins ++ shared)) owner b ∧
        ∀ e ∈ entities, e.isRelational = true →
          Naming.uncapitalize a.target = Naming.uncapitalize e.name →
          e.table = a.targetLcPl ∧ CreatedBefore (tables ++ (joins ++ shared)) e b :=
      ⟨hcreated owner howner hrel hg b hbj hassoc, fun e he herel hname =>
        ⟨Entity.table_eq_targetLcPl hname, hcreated e he herel hg b hbj hassoc⟩⟩
    rcases hra with rfl | rfl
    · rw [hat] at hboth ⊢
      exact ⟨owner, howner, a, ha, Migration.column owner a, Or.inl ⟨rfl, rfl⟩, rfl, rfl, hboth⟩
    · rw [hat] at hboth ⊢
      exact ⟨owner, howner, a, ha, Migration.joinTable owner a, Or.inr ⟨rfl, rfl⟩, rfl, rfl, hboth⟩

/-! ## The order within a session -/

/-- Only migrations have places among the migrations. -/
theorem fixed_not_isMigration {settings : Settings} {batch : List Loaded} {r : Request}
    (h : r ∈ requestsOf settings batch) {path : Path} (hplace : r.place = .fixed path) :
    ¬ r.IsMigration := by
  rw [requestsOf, Request.all_eq, List.mem_append, List.mem_append] at h
  rcases h with (h | h) | h
  · obtain ⟨e, -, he⟩ := List.mem_flatMap.mp h
    rcases Request.mem_ofEntity settings he with ⟨rfl, -, -⟩ | ⟨hno, -⟩
    · exact nomatch hplace
    · exact hno
  · obtain ⟨-, owner, -, -, a, -, rfl | rfl⟩ := Request.mem_deferred settings h <;>
      exact nomatch hplace
  · exact (Request.ofBatch_place settings h).1

/-- **Migrations in order**, over any session of a new stamper whose times stay in plain years:
    every run has an answer, the migrations of all runs together are named in byte order, and
    those of each run stand in the order in which they can be applied. -/
theorem session_migrations_in_order {σ : Type} (settings : Settings) (clock : Clock)
    (writer : Writer σ) (state : σ) (batches : List (List Loaded))
    (hplain : ∀ t ∈ Stamper.new.issued clock
      (session settings clock writer Stamper.new state batches).2.1.reads, t.HasPlainYear) :
    ∃ runs : List (List Attempt),
      (session settings clock writer Stamper.new state batches).1 = runs.map some ∧
      (runs.flatten.Pairwise fun a b =>
        a.IsMigration → b.IsMigration → a.path.Precedes b.path) ∧
      List.Forall₂ (fun as batch => InOrder (assembled settings.policy batch) as) runs batches := by
  have hnew : Stamper.new.last ≠ some Moment.latest := nofun
  obtain ⟨runs, ts, hruns, hdraws, hnamed, hall⟩ :=
    session_named hnew (Nat.zero_add _).symm hplain
  have hissued := hdraws.mem_issued (Nat.le_of_eq (Nat.zero_add _).symm)
  have hsorted := hnamed.migrations_increase
    (fun r hr path hplace => by
      obtain ⟨batch, -, hmem⟩ := List.mem_flatMap.mp hr
      exact fixed_not_isMigration hmem hplace)
    (fun t ht => hplain t (hissued t ht)) hdraws.increasing.2
  refine ⟨runs, hruns, hsorted, ?_⟩
  have heach := (List.pairwise_flatten.mp hsorted).1
  refine ((List.forall₂_and_left runs batches).mpr ⟨heach, hall⟩).imp ?_
  rintro as batch ⟨hpairs, us, hus⟩
  exact inOrder_of_named hus hpairs

/-- Two entities that refer to each other, with a file between them that is no document. -/
def sampleBatch : List Loaded :=
  [⟨⟨"book.json"⟩, .ok
      { name := "Book", storage := .sql, attributes := .ofList [("title", "String")]
        associations := .ofList
          [("owner", { kind := "sql_belongsTo", target := "Person", targetStorage := .sql
                       targetKey := some "ownerId" }),
            ("readers", { kind := "sql_belongsToMany", target := "person", targetStorage := .sql
                          keysIn := some "books_to_people" })]
        indices := [] }⟩,
    ⟨⟨"broken.json"⟩, .error (.notJson "broken.json")⟩,
    ⟨⟨"person.json"⟩, .ok
      { name := "person", storage := .sql, attributes := .ofList [("name", "Text")]
        associations := .ofList
          [("books", { kind := "sql_belongsToMany", target := "Book", targetStorage := .sql
                       keysIn := some "books_to_people" })]
        indices := [] }⟩]

/-- A clock that stands still two seconds before the end of the year 1999. -/
def frozenClock : Clock :=
  Clock.ofList ⟨(Moment.ofPlaces? 1999 12 31 23 59 58).get (by decide), 900000000⟩ []

/-- Two runs on the same batch: four migrations each, named across the turn of the year. -/
theorem session_migrations_in_order_sample :
    (session {} frozenClock Writer.dry Stamper.new () [sampleBatch, sampleBatch]).2.1.reads = 8 ∧
    (∀ t ∈ Stamper.new.issued frozenClock 8, t.HasPlainYear) ∧
    ∃ runs : List (List Attempt),
      (session {} frozenClock Writer.dry Stamper.new () [sampleBatch, sampleBatch]).1
        = runs.map some ∧
      (runs.flatten.Pairwise fun a b =>
        a.IsMigration → b.IsMigration → a.path.Precedes b.path) ∧
      List.Forall₂ (fun as batch => InOrder (assembled .reject batch) as) runs
        [sampleBatch, sampleBatch] := by
  have hreads : (session {} frozenClock Writer.dry Stamper.new ()
      [sampleBatch, sampleBatch]).2.1.reads = 8 := by decide +kernel
  have hall : ∀ m : Fin 8,
      ∀ t ∈ Stamper.new.time? frozenClock m, t.HasPlainYear := by decide +kernel
  have hplain : ∀ t ∈ Stamper.new.issued frozenClock 8, t.HasPlainYear := by
    rintro t ⟨m, hm, ht⟩
    exact hall ⟨m, hm⟩ t ht
  refine ⟨hreads, hplain, ?_⟩
  exact session_migrations_in_order {} frozenClock Writer.dry () [sampleBatch, sampleBatch]
    (by rw [hreads]; exact hplain)

end Scaffold
