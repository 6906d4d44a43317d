import Mathlib
import Scaffold.Proofs.Run.Requests

/-!
# How many files a run asks for

  Every entity asks for the same number of files as the others of its storage,
  and the batch for three. The migrations of associations are counted one by
  one for columns, and once for each name among the join tables. The list of
  names that are already known grows along the entities; what carries the count
  is that the new names are distinct, and are those that are not yet known.
-/

namespace Scaffold

/-- The join tables that an entity declares, as often as it declares them. -/
def Entity.joinTables (e : Entity) : List String :=
  (e.associations.implicit.ofShape .belongsToMany).map Association.keysIn

/-- How many columns the entity's associations add to its table. -/
def Entity.columnCount (e : Entity) : Nat := (e.associations.implicit.ofShape .belongsTo).length

namespace Request

variable (settings : Settings)

/-- How many files a run on these entities has to write. -/
def total (es : List Entity) : Nat :=
  3 * es.countP (fun e => !e.isRelational) +
    (if settings.generateMigrations then 4 else 3) * es.countP (·.isRelational) +
    (if settings.generateMigrations then
      ((es.filter (·.isRelational)).map Entity.columnCount).sum +
        ((es.filter (·.isRelational)).flatMap Entity.joinTables).dedup.length
      else 0) + 3

/-! ## Entities -/

theorem length_ofEntity (e : Entity) :
    (ofEntity settings e).length =
      if e.isRelational && settings.generateMigrations then 4 else 3 := by
  rw [ofEntity, List.length_map, plan, Entity.isRelational]
  cases e.storage <;> cases settings.generateMigrations <;> rfl

theorem length_ofEntities (es : List Entity) :
    (ofEntities settings es).length =
      3 * es.countP (fun e => !e.isRelational) +
        (if settings.generateMigrations then 4 else 3) * es.countP (·.isRelational) := by
  induction es with
  | nil => rfl
  | cons e es ih =>
      rw [ofEntities, List.flatMap_cons, List.length_append, length_ofEntity]
      rw [ofEntities] at ih
      rw [ih, List.countP_cons, List.countP_cons]
      cases e.isRelational <;> cases settings.generateMigrations <;> simp <;> omega

/-! ## Join tables -/

/-- The associations that bring a join table bring the names that are not known, each once. -/
theorem newJoins_keys (known : List String) (as : List Association) :
    ((newJoins known as).map Association.keysIn).Nodup ∧
      ∀ k, k ∈ (newJoins known as).map Association.keysIn ↔
        k ∈ as.map Association.keysIn ∧ k ∉ known := by
  induction as generalizing known with
  | nil => exact ⟨List.nodup_nil, fun k => by simp [newJoins]⟩
  | cons a as ih =>
      rw [newJoins]
      by_cases ha : a.keysIn ∈ known
      · rw [if_pos ha]
        refine ⟨(ih known).1, fun k => ?_⟩
        rw [(ih known).2 k, List.map_cons, List.mem_cons]
        constructor
        · rintro ⟨hk, hnew⟩
          exact ⟨Or.inr hk, hnew⟩
        · rintro ⟨rfl | hk, hnew⟩
          · exact absurd ha hnew
          · exact ⟨hk, hnew⟩
      · rw [if_neg ha]
        obtain ⟨hnodup, hmem⟩ := ih (a.keysIn :: known)
        refine ⟨?_, fun k => ?_⟩
        · rw [List.map_cons]
          refine List.nodup_cons.mpr ⟨fun h => ?_, hnodup⟩
          exact ((hmem _).mp h).2 List.mem_cons_self
        · simp only [List.map_cons, List.mem_cons, hmem k, not_or]
          constructor
          · rintro (rfl | ⟨hk, -, hnew⟩)
            · exact ⟨Or.inl rfl, ha⟩
            · exact ⟨Or.inr hk, hnew⟩
          · rintro ⟨rfl | hk, hnew⟩
            · exact Or.inl rfl
            · by_cases hka : k = a.keysIn
              · exact Or.inl hka
              · exact Or.inr ⟨hk, hka, hnew⟩

/-- The join tables of entities that are not known, each in the place in which it first comes. -/
def newKeys (known : List String) : List Entity → List String
  | [] => []
  | e :: es =>
    let keys := (newJoins known (e.associations.implicit.ofShape .belongsToMany)).map
      Association.keysIn
    keys ++ newKeys (keys ++ known) es

/-- Over a list of entities too, the names that are not known come up once each. -/
theorem newKeys_spec (known : List String) (es : List Entity) :
    (newKeys known es).Nodup ∧
      ∀ k, k ∈ newKeys known es ↔ k ∈ es.flatMap Entity.joinTables ∧ k ∉ known := by
  induction es generalizing known with
  | nil => exact ⟨List.nodup_nil, fun k => by simp [newKeys]⟩
  | cons e es ih =>
      obtain ⟨hnodup, hmem⟩ := newJoins_keys known (e.associations.implicit.ofShape .belongsToMany)
      rw [newKeys]
      generalize (newJoins known (e.associations.implicit.ofShape .belongsToMany)).map
        Association.keysIn = keys at *
      obtain ⟨hkeys, hmem'⟩ := ih (keys ++ known)
      refine ⟨?_, fun k => ?_⟩
      · refine List.nodup_append.mpr ⟨hnodup, hkeys, fun k hk k' hk' heq => ?_⟩
        -- a later name is not known behind `e`, where all names of `e` are
        rw [← heq] at hk'
        exact ((hmem' k).mp hk').2 (List.mem_append_left _ hk)
      · rw [List.mem_append, hmem k, hmem' k, List.flatMap_cons, List.mem_append, List.mem_append,
          hmem k]
        have hjoin : k ∈ e.joinTables ↔
            k ∈ (e.associations.implicit.ofShape .belongsToMany).map Association.keysIn := Iff.rfl
        rw [hjoin]
        tauto

theorem length_ofAssociations (known : List String) (es : List Entity) :
    (ofAssociations known es).length =
      (es.map Entity.columnCount).sum + (newKeys known es).length := by
  induction es generalizing known with
  | nil => rfl
  | cons e es ih =>
      simp only [ofAssociations, newKeys, List.length_append, List.length_map, ih, List.map_cons,
        List.sum_cons, Entity.columnCount]
      omega

theorem length_deferred (es : List Entity) :
    (deferred settings es).length =
      if settings.generateMigrations then
        ((es.filter (·.isRelational)).map Entity.columnCount).sum +
          ((es.filter (·.isRelational)).flatMap Entity.joinTables).dedup.length
      else 0 := by
  rw [deferred]
  cases settings.generateMigrations with
  | false => rfl
  | true =>
      obtain ⟨hkeys, hmem⟩ := newKeys_spec [] (es.filter (·.isRelational))
      have hperm : (newKeys [] (es.filter (·.isRelational))).Perm
          ((es.filter (·.isRelational)).flatMap Entity.joinTables).dedup := by
        refine (List.perm_ext_iff_of_nodup hkeys (List.nodup_dedup _)).mpr fun k => ?_
        rw [hmem k, List.mem_dedup]
        simp
      rw [if_pos rfl, if_pos rfl, length_ofAssociations, hperm.length_eq]

/-! ## All requests -/

theorem length_all (es : List Entity) : (all settings es).length = total settings es := by
  rw [all_eq, List.length_append, List.length_append, length_ofEntities, length_deferred]
  rfl

end Request

end Scaffold
