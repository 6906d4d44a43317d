import Scaffold.Proofs.Association.Partition

/-!
# Skipped associations

  To skip associations of unknown kinds is to classify the others as if they
  were all there is, and to note the skipped ones beside them. The comparison
  is made where associations are resolved one by one: an unknown one resolves
  without fail, and for a known one the policy makes no difference.
-/

namespace Scaffold

/-- The declared kind is one of the kinds. -/
def Association.Spec.isKnown (s : Association.Spec) : Bool :=
  (Kind.all.map Kind.name).contains s.kind

theorem Association.Spec.isKnown_iff {s : Association.Spec} :
    s.isKnown = true ↔ Kind.IsName s.kind := List.contains_iff_mem

theorem Association.Spec.ofName?_eq_none {s : Association.Spec} (h : s.isKnown = false) :
    Kind.ofName? s.kind = none := by
  rw [Kind.ofName?_eq_none_iff, ← isKnown_iff, h]
  exact nofun

theorem Association.Spec.exists_kind {s : Association.Spec} (h : s.isKnown = true) :
    ∃ kind, Kind.ofName? s.kind = some kind := by
  cases hk : Kind.ofName? s.kind with
  | some kind => exact ⟨kind, rfl⟩
  | none => exact absurd (isKnown_iff.mp h) ((Kind.ofName?_eq_none_iff s.kind).mp hk)

/-! ## One association -/

namespace Resolution

variable {e : String × Association.Spec}

theorem of_skip_unknown (h : e.2.isKnown = false) : of .skip e.1 e.2 = .ok (resolved e) := by
  rw [of, resolved, Association.Spec.ofName?_eq_none h]

theorem of_skip_known (h : e.2.isKnown = true) : of .skip e.1 e.2 = of .reject e.1 e.2 := by
  obtain ⟨kind, hk⟩ := Association.Spec.exists_kind h
  rw [of, of, hk]

theorem unsupported?_resolved (e : String × Association.Spec) :
    (resolved e).unsupported? = if e.2.isKnown then none else some (e.1, e.2.kind) := by
  rw [resolved]
  cases h : e.2.isKnown with
  | true =>
      obtain ⟨kind, hk⟩ := Association.Spec.exists_kind h
      rw [hk]
      rfl
  | false =>
      rw [Association.Spec.ofName?_eq_none h]
      rfl

theorem known?_resolved_of_unknown (h : e.2.isKnown = false) : (resolved e).known? = none := by
  rw [resolved, Association.Spec.ofName?_eq_none h]
  rfl

/-! ## All of them -/

/-- Skipping fails where rejecting fails on the known ones, for the same cause, and otherwise
    resolves every association. -/
theorem mapM_skip (es : List (String × Association.Spec)) :
    es.mapM (fun e => of .skip e.1 e.2) =
      ((es.filter (·.2.isKnown)).mapM fun e => of .reject e.1 e.2).map fun _ =>
        es.map resolved := by
  induction es with
  | nil => rfl
  | cons e es ih =>
      rw [List.mapM_cons, ih]
      cases h : e.2.isKnown with
      | false =>
          rw [List.filter_cons_of_neg (by rw [h]; exact nofun), of_skip_unknown h]
          cases (es.filter (·.2.isKnown)).mapM fun e => of .reject e.1 e.2 <;> rfl
      | true =>
          rw [List.filter_cons_of_pos (by exact h), of_skip_known h, List.mapM_cons]
          -- both stop at the first failure, which an unknown association never is
          cases hr : of .reject e.1 e.2 with
          | error f => rfl
          | ok r =>
              rw [eq_resolved hr]
              cases (es.filter (·.2.isKnown)).mapM fun e => of .reject e.1 e.2 <;> rfl

theorem filterMap_known_filter (es : List (String × Association.Spec)) :
    ((es.filter (·.2.isKnown)).map resolved).filterMap known? =
      (es.map resolved).filterMap known? := by
  induction es with
  | nil => rfl
  | cons e es ih =>
      cases h : e.2.isKnown with
      | true =>
          rw [List.filter_cons_of_pos (by exact h), List.map_cons, List.map_cons, List.filterMap_cons,
            List.filterMap_cons, ih]
      | false =>
          rw [List.filter_cons_of_neg (by rw [h]; exact nofun), List.map_cons,
            List.filterMap_cons_none (known?_resolved_of_unknown h), ih]

end Resolution

/-! ## Classifications -/

/-- The declarations of known kinds. -/
def Association.known (specs : Dict Association.Spec) : Dict Association.Spec :=
  specs.filter fun _ s => s.isKnown

/-- Names and kinds of the other declarations, in the order of declaration. -/
def Association.unknown (specs : Dict Association.Spec) : List (String × String) :=
  (specs.entries.filter fun e => !e.2.isKnown).map fun e => (e.1, e.2.kind)

namespace Classification

theorem filterMap_unsupported (es : List (String × Association.Spec)) :
    (es.map Resolution.resolved).filterMap Resolution.unsupported? =
      (es.filter fun e => !e.2.isKnown).map fun e => (e.1, e.2.kind) := by
  induction es with
  | nil => rfl
  | cons e es ih =>
      have he := Resolution.unsupported?_resolved e
      cases h : e.2.isKnown with
      | true =>
          rw [h] at he
          rw [List.filter_cons_of_neg (by rw [h]; exact nofun), List.map_cons,
            List.filterMap_cons_none he, ih]
      | false =>
          rw [h] at he
          rw [List.filter_cons_of_pos (by rw [h]; rfl), List.map_cons, List.filterMap_cons_some he, ih,
            List.map_cons]

/-- Skipping classifies what rejecting classifies on the known declarations. -/
theorem of_skip (owner : Storage) (specs : Dict Association.Spec) :
    of owner .skip specs =
      (of owner .reject (Association.known specs)).map fun c =>
        { c with unsupported := Association.unknown specs } := by
  show (specs.entries.mapM fun e => Resolution.of .skip e.1 e.2) >>= _ = _
  rw [Resolution.mapM_skip]
  show _ = Except.map _ (((specs.entries.filter (·.2.isKnown)).mapM fun e =>
    Resolution.of .reject e.1 e.2) >>= _)
  cases h : (specs.entries.filter (·.2.isKnown)).mapM fun e => Resolution.of .reject e.1 e.2 with
  | error f => rfl
  | ok rs =>
      rw [eq_map_of_mapM_eq_ok (fun e r => Resolution.eq_resolved) h]
      show Except.ok (ofResolutions owner (specs.entries.map Resolution.resolved)) =
        .ok { ofResolutions owner ((specs.entries.filter (·.2.isKnown)).map Resolution.resolved) with
          unsupported := Association.unknown specs }
      simp only [ofResolutions, Resolution.filterMap_known_filter, filterMap_unsupported,
        Association.unknown]

end Classification

end Scaffold
