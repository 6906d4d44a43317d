import Scaffold.Proofs.Run.Writes

/-!
# Definitions that are left out

  A definition that cannot be loaded, or of which no entity can be assembled,
  has its place among the definitions left out and no other trace. This rests
  on one fact: what a run attempts depends on the batch only through the
  entities that are assembled from it.
-/

namespace Scaffold

/-! ## Failing definitions -/

/-- The definition cannot be loaded for that cause, or no entity can be assembled from it. -/
def Loaded.FailsWith (policy : Policy) (l : Loaded) (f : Failure) : Prop :=
  l.definition = .error f ∨
    ∃ d, l.definition = .ok d ∧ Entity.ofDefinition policy d = .error f

/-- No entity comes of the definition. -/
def Loaded.fails (policy : Policy) (l : Loaded) : Bool := !(l.entity policy).isOk

section Failing

variable {policy : Policy} {l : Loaded}

theorem Loaded.entity_of_failsWith {f : Failure} (h : l.FailsWith policy f) :
    l.entity policy = .error ⟨l.path, f⟩ := by
  rw [entity_eq]
  rcases h with h | ⟨d, hd, hf⟩
  · rw [h]
    rfl
  · rw [hd, show (Except.ok d).bind (Entity.ofDefinition policy) = _ from hf]
    rfl

theorem Loaded.failsWith_of_entity {e : EntityFailure} (h : l.entity policy = .error e) :
    e.path = l.path ∧ l.FailsWith policy e.failure := by
  rw [entity_eq] at h
  cases hd : l.definition with
  | error f =>
      rw [hd] at h
      cases h
      exact ⟨rfl, Or.inl hd⟩
  | ok d =>
      rw [hd, show (Except.ok d).bind (Entity.ofDefinition policy) =
        Entity.ofDefinition policy d from rfl] at h
      cases hf : Entity.ofDefinition policy d with
      | ok e' =>
          rw [hf] at h
          exact nomatch h
      | error f =>
          rw [hf] at h
          cases h
          exact ⟨rfl, Or.inr ⟨d, hd, hf⟩⟩

end Failing

/-! ## Batches with and without them -/

section Batches

variable (policy : Policy)

theorem assembled_append (batch batch' : List Loaded) :
    assembled policy (batch ++ batch') = assembled policy batch ++ assembled policy batch' :=
  List.filterMap_append

theorem leftOut_append (batch batch' : List Loaded) :
    leftOut policy (batch ++ batch') = leftOut policy batch ++ leftOut policy batch' :=
  List.filterMap_append

/-- The definitions that do not fail bring all entities, and none of them is left out. -/
theorem filter_fails (batch : List Loaded) :
    assembled policy (batch.filter (!·.fails policy)) = assembled policy batch ∧
      leftOut policy (batch.filter (!·.fails policy)) = [] := by
  induction batch with
  | nil => exact ⟨rfl, rfl⟩
  | cons l batch ih =>
      cases h : l.entity policy with
      | ok e =>
          have hfails : l.fails policy = false := by rw [Loaded.fails, h]; rfl
          rw [List.filter_cons_of_pos (by rw [hfails]; rfl), assembled_cons_ok _ h,
            assembled_cons_ok _ h, leftOut_cons_ok _ h, ih.1]
          exact ⟨rfl, ih.2⟩
      | error f =>
          have hfails : l.fails policy = true := by rw [Loaded.fails, h]; rfl
          rw [List.filter_cons_of_neg (by rw [hfails]; exact nofun), assembled_cons_error _ h]
          exact ih

/-- The definitions left out are those that fail, in turn, each with its path and cause. -/
theorem leftOut_matches (batch : List Loaded) :
    List.Forall₂ (fun l e => e.path = l.path ∧ l.FailsWith policy e.failure)
      (batch.filter (·.fails policy)) (leftOut policy batch) := by
  induction batch with
  | nil => exact .nil
  | cons l batch ih =>
      cases h : l.entity policy with
      | ok e =>
          rw [List.filter_cons_of_neg (by rw [Loaded.fails, h]; exact nofun), leftOut_cons_ok _ h]
          exact ih
      | error f =>
          rw [List.filter_cons_of_pos (by rw [Loaded.fails, h]; rfl), leftOut_cons_error _ h]
          exact .cons (Loaded.failsWith_of_entity h) ih

/-- The entities are those of the definitions that do not fail, in turn. -/
theorem assembled_matches (batch : List Loaded) :
    List.Forall₂ (fun l e => l.entity policy = .ok e) (batch.filter (!·.fails policy))
      (assembled policy batch) := by
  induction batch with
  | nil => exact .nil
  | cons l batch ih =>
      cases h : l.entity policy with
      | ok e =>
          rw [List.filter_cons_of_pos (by rw [Loaded.fails, h]; rfl), assembled_cons_ok _ h]
          exact .cons h ih
      | error f =>
          rw [List.filter_cons_of_neg (by rw [Loaded.fails, h]; exact nofun),
            assembled_cons_error _ h]
          exact ih

end Batches

/-! ## Runs with and without them -/

/-- Runs on two batches differ in nothing but the definitions that are left out: `fs` of the first
    batch and `fs'` of the second. -/
structure SameBut (settings : Settings) (clock : Clock) (s : Stamper) (batch : List Loaded)
    (fs : List EntityFailure) (batch' : List Loaded) (fs' : List EntityFailure) : Prop where
  /-- The same files are attempted, under the same stamps. -/
  attempts : attempts settings clock s batch' = attempts settings clock s batch
  /-- The reports agree but for the definitions left out, and stamper and writer go through the
      same. -/
  runs : ∀ (σ : Type) (writer : Writer σ) (state : σ), ∃ r s' state',
    run settings clock writer s state batch = (some r, s', state') ∧ r.entityFailures = fs ∧
      run settings clock writer s state batch' =
        (some { r with entityFailures := fs' }, s', state')

/-- What a run does depends on the batch only through the entities that it assembles. -/
theorem sameBut_of_assembled {settings : Settings} {clock : Clock} {s : Stamper}
    {batch batch' : List Loaded}
    (h : assembled settings.policy batch' = assembled settings.policy batch)
    (hlasts : s.Lasts clock (stampsOf settings batch)) :
    SameBut settings clock s batch (leftOut settings.policy batch) batch'
      (leftOut settings.policy batch') := by
  have hsame : attempts settings clock s batch' = attempts settings clock s batch := by
    rw [attempts, attempts, h]
  obtain ⟨as, s', has⟩ := attempts_of_lasts hlasts
  refine ⟨hsame, fun σ writer state => ?_⟩
  refine ⟨_, s', _, run_of_attempts has writer state, rfl, ?_⟩
  rw [run_of_attempts (hsame.trans has), h]
  rfl

/-- **A failing definition affects only itself.** Wherever it stands in a batch, the run is that of
    the batch without it, but for its own entry among the definitions left out; while definitions
    are taken one at a time, taking it does nothing else. And a run on any batch is the run on the
    definitions that do not fail, but for the list of those that do. -/
theorem failing_apart (settings : Settings) (clock : Clock) (s : Stamper) :
    (∀ (before after : List Loaded) (l : Loaded) (f : Failure), l.FailsWith settings.policy f →
      s.Lasts clock (stampsOf settings (before ++ after)) →
        SameBut settings clock s
          (before ++ after) (leftOut settings.policy before ++ leftOut settings.policy after)
          (before ++ l :: after)
          (leftOut settings.policy before ++ ⟨l.path, f⟩ :: leftOut settings.policy after) ∧
        ∀ (σ : Type) (writer : Writer σ) (p : Progress σ),
          p.take settings clock writer l = some { p with failures := p.failures ++ [⟨l.path, f⟩] }) ∧
    ∀ batch : List Loaded, s.Lasts clock (stampsOf settings batch) →
      ∃ fs, SameBut settings clock s (batch.filter (!·.fails settings.policy)) [] batch fs ∧
        List.Forall₂ (fun l e => e.path = l.path ∧ l.FailsWith settings.policy e.failure)
          (batch.filter (·.fails settings.policy)) fs := by
  constructor
  · intro before after l f hf hlasts
    have herror := Loaded.entity_of_failsWith hf
    have hsame : assembled settings.policy (before ++ l :: after) =
        assembled settings.policy (before ++ after) := by
      rw [assembled_append, assembled_append, assembled_cons_error _ herror]
    have hbut := sameBut_of_assembled hsame hlasts
    -- the entry of `l` stands where `l` stands, between those before and those behind
    rw [leftOut_append, leftOut_append, leftOut_cons_error _ herror] at hbut
    exact ⟨hbut, fun σ writer p => Progress.take_error herror⟩
  · intro batch hlasts
    obtain ⟨hsame, hnone⟩ := filter_fails settings.policy batch
    have hstamps : stampsOf settings (batch.filter (!·.fails settings.policy)) =
        stampsOf settings batch := by
      rw [stampsOf, stampsOf, requestsOf, requestsOf, hsame]
    have hbut := sameBut_of_assembled hsame.symm (hstamps ▸ hlasts)
    rw [hnone] at hbut
    exact ⟨_, hbut, leftOut_matches settings.policy batch⟩

/-- A definition with an association of an unknown kind. -/
def oddDefinition : Loaded :=
  ⟨⟨"tag.json"⟩, .ok
    { name := "Tag", storage := .sql, attributes := .empty
      associations := .ofList
        [("posts", { kind := "sql_hasAny", target := "Post", targetStorage := .sql })]
      indices := [] }⟩

/-- It fails where such kinds are rejected, here between a table and a file that is no document. -/
theorem failing_apart_sample :
    oddDefinition.FailsWith .reject (.unsupportedKind "posts" "sql_hasAny") ∧
    Stamper.new.Lasts frozenClock (stampsOf {} (sampleBatch.take 1 ++ sampleBatch.drop 1)) ∧
    SameBut {} frozenClock Stamper.new
      (sampleBatch.take 1 ++ sampleBatch.drop 1) [⟨⟨"broken.json"⟩, .notJson "broken.json"⟩]
      (sampleBatch.take 1 ++ oddDefinition :: sampleBatch.drop 1)
      [⟨⟨"tag.json"⟩, .unsupportedKind "posts" "sql_hasAny"⟩,
        ⟨⟨"broken.json"⟩, .notJson "broken.json"⟩] ∧
    ∃ fs, SameBut {} frozenClock Stamper.new (sampleBatch.filter (!·.fails .reject)) []
        sampleBatch fs ∧
      List.Forall₂ (fun l e => e.path = l.path ∧ l.FailsWith .reject e.failure)
        (sampleBatch.filter (·.fails .reject)) fs := by
  have hfails : oddDefinition.FailsWith .reject (.unsupportedKind "posts" "sql_hasAny") :=
    Or.inr ⟨_, rfl, by decide +kernel⟩
  obtain ⟨hinsert, hbatch⟩ := failing_apart {} frozenClock Stamper.new
  have hone := (hinsert (sampleBatch.take 1) (sampleBatch.drop 1) _ _ hfails lasts_sampleBatch).1
  have hbefore : leftOut (Settings.policy {}) (sampleBatch.take 1) = [] := by decide +kernel
  have hafter : leftOut (Settings.policy {}) (sampleBatch.drop 1) =
      [⟨⟨"broken.json"⟩, .notJson "broken.json"⟩] := by decide +kernel
  rw [hbefore, hafter] at hone
  exact ⟨hfails, lasts_sampleBatch, hone, hbatch sampleBatch lasts_sampleBatch⟩

end Scaffold
