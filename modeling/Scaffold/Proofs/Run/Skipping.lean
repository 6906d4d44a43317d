import Scaffold.Proofs.Association.Skipping
import Scaffold.Proofs.Run.Stepwise

/-!
# Runs that skip associations

  A run that skips associations of unknown kinds is a strict run on definitions
  without them. An entity remembers what has been skipped, but nothing that is
  generated from it looks there: every template gives the same text for the
  entity without this memory, and so a run has the same requests.
-/

namespace Scaffold

/-! ## Entities without the memory of skipped associations -/

/-- The entity as if nothing had been skipped. -/
def Entity.unmarked (e : Entity) : Entity :=
  { e with associations := { e.associations with unsupported := [] } }

/-- The definition without its associations of unknown kinds. -/
def Definition.known (d : Definition) : Definition :=
  { d with associations := Association.known d.associations }

/-- The definition file without the associations of unknown kinds. -/
def Loaded.known (l : Loaded) : Loaded := { l with definition := l.definition.map Definition.known }

/-- Skipping assembles what rejecting assembles from the rest, with the skipped ones noted. -/
theorem Entity.ofDefinition_skip (d : Definition) :
    (ofDefinition .skip d).map unmarked = ofDefinition .reject d.known := by
  have hstrict : ∀ c, Classification.of d.storage .reject (Association.known d.associations) =
      .ok c → c.unsupported = [] := by
    intro c hc
    rw [Classification.eq_of_ok hc]
    show ((Association.known d.associations).entries.map _).filterMap _ = []
    rw [Classification.filterMap_unsupported, List.map_eq_nil_iff, List.filter_eq_nil_iff]
    intro e he
    have hknown : e.2.isKnown = true := (List.mem_filter.mp he).2
    rw [hknown]
    exact nofun
  show Except.map unmarked (Classification.of d.storage .skip d.associations >>= _) =
    (Classification.of d.storage .reject (Association.known d.associations) >>= _)
  rw [Classification.of_skip]
  cases hc : Classification.of d.storage .reject (Association.known d.associations) with
  | error f => rfl
  | ok c =>
      show Except.ok (unmarked _) = Except.ok _
      rw [unmarked, ← hstrict c hc]
      rfl

theorem Loaded.entity_skip (l : Loaded) :
    (l.entity .skip).map Entity.unmarked = l.known.entity .reject := by
  rw [entity_eq, entity_eq, known]
  cases l.definition with
  | error f => rfl
  | ok d =>
      show Except.map Entity.unmarked ((Entity.ofDefinition .skip d).mapError _) =
        (Entity.ofDefinition .reject d.known).mapError _
      rw [← Entity.ofDefinition_skip]
      cases Entity.ofDefinition .skip d <;> rfl

theorem assembled_skip (batch : List Loaded) :
    (assembled .skip batch).map Entity.unmarked = assembled .reject (batch.map Loaded.known) := by
  rw [assembled, assembled, List.map_filterMap, List.filterMap_map]
  refine List.filterMap_congr fun l _ => ?_
  show (l.entity .skip).toOption.map Entity.unmarked = (l.known.entity .reject).toOption
  rw [← Loaded.entity_skip]
  cases l.entity .skip <;> rfl

theorem leftOut_skip (batch : List Loaded) :
    leftOut .skip batch = leftOut .reject (batch.map Loaded.known) := by
  rw [leftOut, leftOut, List.filterMap_map]
  refine List.filterMap_congr fun l _ => ?_
  -- skipping changes an entity that is there, never whether it is there
  rw [Function.comp_apply, ← Loaded.entity_skip]
  cases l.entity .skip <;> rfl

/-! ## Requests without the memory of skipped associations -/

/-- No template looks at what has been skipped. -/
theorem Template.render_unmarked (t : Template) (e : Entity) :
    t.render (.entity e.unmarked) = t.render (.entity e) := by
  cases t <;> rfl

namespace Request

theorem ofEntity_unmarked (settings : Settings) (e : Entity) :
    ofEntity settings e.unmarked = ofEntity settings e := by
  show (plan settings e).map _ = (plan settings e).map _
  refine List.map_congr_left fun p _ => ?_
  show (⟨some p.1, p.2, _⟩ : Request) = ⟨some p.1, p.2, _⟩
  rw [Template.render_unmarked]

theorem ofAssociations_unmarked (known : List String) (es : List Entity) :
    ofAssociations known (es.map Entity.unmarked) = ofAssociations known es := by
  induction es generalizing known with
  | nil => rfl
  | cons e es ih =>
      rw [List.map_cons, ofAssociations, ofAssociations, ih]
      rfl

theorem all_unmarked (settings : Settings) (es : List Entity) :
    all settings (es.map Entity.unmarked) = all settings es := by
  have hrelational : (es.map Entity.unmarked).filter (·.isRelational) =
      (es.filter (·.isRelational)).map Entity.unmarked := List.filter_map
  have hindexed : (es.map Entity.unmarked).map Resolvers.Indexed.of =
      es.map Resolvers.Indexed.of := List.map_map
  rw [all, all, hrelational, ofAssociations_unmarked, List.flatMap_map, ofBatch, hindexed]
  simp only [ofEntity_unmarked]
  rfl

end Request

/-! ## Runs -/

/-- The settings under which associations of unknown kinds are skipped. -/
def Settings.skipping (settings : Settings) : Settings :=
  { settings with strictAssociations := false }

/-- The settings under which they fail their entity. -/
def Settings.strict (settings : Settings) : Settings :=
  { settings with strictAssociations := true }

theorem attempts_skip (settings : Settings) (clock : Clock) (s : Stamper) (batch : List Loaded) :
    attempts settings.skipping clock s batch =
      attempts settings.strict clock s (batch.map Loaded.known) := by
  have hrequests : Request.all settings.skipping (assembled .skip batch) =
      Request.all settings.strict (assembled .reject (batch.map Loaded.known)) := by
    rw [← assembled_skip, Request.all_unmarked]
    rfl
  have hskipping : settings.skipping.policy = .skip := rfl
  have hstrict : settings.strict.policy = .reject := rfl
  rw [attempts, attempts, hskipping, hstrict, hrequests]
  rfl

/-- **Skipped associations leave no trace.** To classify with skipping is to classify the known
    declarations strictly and to note the others. And a run that skips is, for every writer and
    clock, the strict run on the definitions without them: it attempts the same files with the same
    texts, reports the same, and leaves writer and stamper the same. -/
theorem skipped_leave_no_trace (settings : Settings) (clock : Clock) :
    (∀ (owner : Storage) (specs : Dict Association.Spec),
      Classification.of owner .skip specs =
        (Classification.of owner .reject (Association.known specs)).map fun c =>
          { c with unsupported := Association.unknown specs }) ∧
    ∀ (s : Stamper) (batch : List Loaded),
      attempts settings.skipping clock s batch =
          attempts settings.strict clock s (batch.map Loaded.known) ∧
        ∀ (σ : Type) (writer : Writer σ) (state : σ),
          run settings.skipping clock writer s state batch =
            run settings.strict clock writer s state (batch.map Loaded.known) := by
  refine ⟨Classification.of_skip, fun s batch => ?_⟩
  have hattempts := attempts_skip settings clock s batch
  refine ⟨hattempts, fun σ writer state => ?_⟩
  have hnames : (assembled .skip batch).map Entity.name =
      (assembled .reject (batch.map Loaded.known)).map Entity.name := by
    rw [← assembled_skip, List.map_map]
    rfl
  cases has : attempts settings.strict clock s (batch.map Loaded.known) with
  | mk as s' =>
      cases as with
      | none => rw [run_of_no_attempts has, run_of_no_attempts (hattempts.trans has)]
      | some as =>
          rw [run_of_attempts has, run_of_attempts (hattempts.trans has)]
          show (some (Report.of (assembled .skip batch) (leftOut .skip batch) _), _) =
            (some (Report.of (assembled .reject (batch.map Loaded.known))
              (leftOut .reject (batch.map Loaded.known)) _), _)
          rw [Report.of, Report.of, hnames, leftOut_skip]

end Scaffold
