import Mathlib.Data.List.Basic
import Scaffold.Dict

/-!
# Writing pairs into dictionaries

  A key that is not there goes to the end. So the entries of a dictionary,
  written in turn into an empty one, give the dictionary back with its order.
  If keys are written more than once, the first time decides where they stand
  and the last time what stands there.
-/

namespace Scaffold

variable {κ α : Type} [DecidableEq κ]

theorem putEntry_of_notMem {k : κ} {es : List (κ × α)} (h : k ∉ es.map Prod.fst) (v : α) :
    putEntry k v es = es ++ [(k, v)] := by
  induction es with
  | nil => rfl
  | cons e es ih =>
      obtain ⟨hne, hes⟩ := not_or.mp fun hk => h (List.mem_cons.mpr hk)
      rw [putEntry, if_neg (Ne.symm hne), ih hes, List.cons_append]

namespace Dict

variable {α : Type}

/-- A dictionary is what its entries are. -/
theorem ext {d d' : Dict α} (h : d.entries = d'.entries) : d = d' := by
  cases d
  cases d'
  cases h
  rfl

theorem insertAll_cons (d : Dict α) (e : String × α) (es : List (String × α)) :
    d.insertAll (e :: es) = (d.insert e.1 e.2).insertAll es := rfl

/-- New keys go to the end, in the order in which they are written. -/
theorem entries_insertAll {d : Dict α} {es : List (String × α)}
    (h : (d.keys ++ es.map Prod.fst).Nodup) : (d.insertAll es).entries = d.entries ++ es := by
  induction es generalizing d with
  | nil => exact (List.append_nil d.entries).symm
  | cons e es ih =>
      have hk : e.1 ∉ d.keys := fun hk =>
        (List.nodup_append.mp h).2.2 e.1 hk e.1 List.mem_cons_self rfl
      have hput : (d.insert e.1 e.2).entries = d.entries ++ [e] := putEntry_of_notMem hk e.2
      have hkeys : (d.insert e.1 e.2).keys = d.keys ++ [e.1] := by
        rw [keys_insert, if_neg hk]
      rw [insertAll_cons, ih, hput, List.append_assoc, List.singleton_append]
      rw [hkeys, List.append_assoc, List.singleton_append]
      exact h

/-- Writing the entries of a dictionary in turn gives the dictionary. -/
theorem ofList_entries (d : Dict α) : ofList d.entries = d :=
  ext (entries_insertAll (by simpa using d.distinct))

/-! ## Keys that come again -/

/-- The last pair with a key decides about it. -/
theorem get?_insertAll (d : Dict α) (es : List (String × α)) (q : String) :
    (d.insertAll es).get? q = (es.reverse.lookup q).or (d.get? q) := by
  induction es generalizing d with
  | nil => rfl
  | cons e es ih =>
      have hone : (if q = e.1 then some e.2 else d.get? q) = ([e].lookup q).or (d.get? q) := by
        rw [List.lookup_cons]
        by_cases hq : q = e.1
        · rw [if_pos hq, beq_iff_eq.mpr hq]
          rfl
        · rw [if_neg hq, beq_eq_false_iff_ne.mpr hq]
          rfl
      rw [insertAll_cons, ih, get?_insert, hone, List.reverse_cons, List.lookup_append,
        Option.or_assoc]

theorem lookup_reverse_of_nodup {es : List (String × α)} (h : (es.map Prod.fst).Nodup)
    (q : String) : es.reverse.lookup q = es.lookup q := by
  induction es with
  | nil => rfl
  | cons e es ih =>
      obtain ⟨hnot, hes⟩ := List.nodup_cons.mp h
      rw [List.reverse_cons, List.lookup_append, ih hes, List.lookup_cons, List.lookup_cons]
      by_cases hq : q = e.1
      · have hnone : es.lookup q = none := by
          rw [List.lookup_eq_none_iff]
          intro p hp
          rw [bne_iff_ne]
          intro hqp
          exact hnot (hq ▸ hqp ▸ List.mem_map_of_mem hp)
        rw [hnone, beq_iff_eq.mpr hq]
        rfl
      · rw [beq_eq_false_iff_ne.mpr hq]
        exact Option.or_none

theorem lookup_map_snd {β : Type} (f : α → β) (es : List (String × α)) (key : String) :
    (es.map fun e => (e.1, f e.2)).lookup key = (es.lookup key).map f := by
  induction es with
  | nil => rfl
  | cons e es ih =>
      rw [List.map_cons, List.lookup_cons, List.lookup_cons]
      cases key == e.1 with
      | true => rfl
      | false => exact ih

/-- The entries of another dictionary go over those that are there. -/
theorem get?_insertAll_entries (d d' : Dict α) (q : String) :
    (d.insertAll d'.entries).get? q = (d'.get? q).or (d.get? q) := by
  rw [get?_insertAll, lookup_reverse_of_nodup d'.distinct]
  rfl

/-! ## Pairs written into an empty dictionary -/

/-- What counts of pairs with keys that come again: each key stands where it first comes, with the
    value of its last pair. -/
def lastValues (es : List (String × α)) : List (String × α) :=
  (es.map Prod.fst).eraseDups.filterMap fun k => (es.reverse.lookup k).map (k, ·)

theorem eraseDups_of_nodup {ks : List String} (h : ks.Nodup) : ks.eraseDups = ks := by
  induction ks with
  | nil => rfl
  | cons k ks ih =>
      obtain ⟨hk, hks⟩ := List.nodup_cons.mp h
      have hfilter : (ks.filter fun q => !q == k) = ks := by
        rw [List.filter_eq_self]
        rintro q hq
        rw [Bool.not_eq_true', beq_eq_false_iff_ne]
        rintro rfl
        exact hk hq
      rw [List.eraseDups_cons, hfilter, ih hks]

/-- A key that is there already does not move. -/
theorem keys_insertAll (d : Dict α) (es : List (String × α)) :
    (d.insertAll es).keys = (d.keys ++ es.map Prod.fst).eraseDups := by
  induction es generalizing d with
  | nil =>
      rw [List.map_nil, List.append_nil, eraseDups_of_nodup d.nodup_keys]
      rfl
  | cons e es ih =>
      rw [insertAll_cons, ih, keys_insert, List.map_cons]
      by_cases hk : e.1 ∈ d.keys
      · have hremove : (e.1 :: es.map Prod.fst).removeAll d.keys =
            (es.map Prod.fst).removeAll d.keys := by
          rw [List.removeAll, List.filter_cons_of_neg]
          · rfl
          · simp [hk]
        rw [if_pos hk, List.eraseDups_append, List.eraseDups_append, hremove]
      · rw [if_neg hk, List.append_assoc, List.singleton_append]

/-- The entries are told by the keys and what stands under them. -/
theorem entries_eq_filterMap (d : Dict α) :
    d.entries = d.keys.filterMap fun k => (d.get? k).map (k, ·) := by
  have h : ∀ es : List (String × α), (es.map Prod.fst).Nodup →
      es = (es.map Prod.fst).filterMap fun k => (es.lookup k).map (k, ·) := by
    intro es hes
    induction es with
    | nil => rfl
    | cons e es ih =>
        obtain ⟨hnot, hes⟩ := List.nodup_cons.mp hes
        have hrest : ((es.map Prod.fst).filterMap fun k => ((e :: es).lookup k).map (k, ·)) =
            (es.map Prod.fst).filterMap fun k => (es.lookup k).map (k, ·) := by
          refine List.filterMap_congr fun k hk => ?_
          have hne : k ≠ e.1 := by
            rintro rfl
            exact hnot hk
          rw [List.lookup_cons, beq_eq_false_iff_ne.mpr hne]
        rw [List.map_cons, List.filterMap_cons, hrest, ← ih hes, List.lookup_cons, beq_self_eq_true]
        rfl
  exact h d.entries d.distinct

/-- Pairs written in turn into an empty dictionary are there with their last values. -/
theorem entries_ofList (es : List (String × α)) : (ofList es).entries = lastValues es := by
  rw [entries_eq_filterMap, ofList, keys_insertAll, keys_empty, List.nil_append, lastValues]
  refine List.filterMap_congr fun k _ => ?_
  rw [get?_insertAll, get?_empty, Option.or_none]

theorem lookup_reverse_const {ks : List String} {k : String} (hk : k ∈ ks) (v : α) :
    (ks.map (·, v)).reverse.lookup k = some v := by
  cases hlookup : (ks.map (·, v)).reverse.lookup k with
  | none =>
      have hmem : (k, v) ∈ (ks.map (·, v)).reverse := List.mem_reverse.mpr (List.mem_map_of_mem hk)
      exact absurd (List.lookup_eq_none_iff.mp hlookup _ hmem) (by simp)
  | some w =>
      obtain ⟨before, after, heq, -⟩ := List.lookup_eq_some_iff.mp hlookup
      have hw : (k, w) ∈ ks.map (·, v) := by
        rw [← List.mem_reverse, heq]
        exact List.mem_append_right _ List.mem_cons_self
      obtain ⟨_, -, hpair⟩ := List.mem_map.mp hw
      rw [(Prod.mk.inj hpair).2]

/-- Keys that are all written with one value stand there with it, each where it first comes. -/
theorem entries_ofList_const (ks : List String) (v : α) :
    (ofList (ks.map (·, v))).entries = ks.eraseDups.map (·, v) := by
  have hkeys : (ks.map (·, v)).map Prod.fst = ks := by
    rw [List.map_map]
    exact List.map_id ks
  rw [entries_ofList, lastValues, hkeys]
  refine (List.filterMap_congr fun k hk => ?_).trans (congrFun List.filterMap_eq_map _)
  rw [lookup_reverse_const (List.mem_eraseDups.mp hk)]
  rfl

end Dict

end Scaffold
