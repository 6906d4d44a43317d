/-!
# Ordered dictionaries

  A dictionary of texts that keeps its keys in the order in which they first
  came. Writing a key again changes its value and leaves its place. The keys
  are pairwise distinct by construction; `keys_insert` and `get?_insert` say
  what a write does to the two views of a dictionary, its key list and its
  look-up.
-/

namespace Scaffold

/-! ## Entries -/

section Entries

variable {κ α : Type} [DecidableEq κ]

/-- Write `v` under `k`: in place if `k` is there, at the end otherwise. -/
def putEntry (k : κ) (v : α) : List (κ × α) → List (κ × α)
  | [] => [(k, v)]
  | e :: es => if e.1 = k then (k, v) :: es else e :: putEntry k v es

theorem keys_putEntry (k : κ) (v : α) (es : List (κ × α)) :
    (putEntry k v es).map Prod.fst =
      if k ∈ es.map Prod.fst then es.map Prod.fst else es.map Prod.fst ++ [k] := by
  induction es with
  | nil => simp [putEntry]
  | cons e es ih =>
    by_cases h : e.1 = k
    · simp [putEntry, h]
    · have h' : ¬ k = e.1 := fun hk => h hk.symm
      simp only [putEntry, if_neg h, List.map_cons, ih, List.mem_cons, h', false_or]
      split <;> rfl

theorem nodup_putEntry (k : κ) (v : α) {es : List (κ × α)}
    (h : (es.map Prod.fst).Nodup) : ((putEntry k v es).map Prod.fst).Nodup := by
  rw [keys_putEntry]
  split
  · exact h
  · rename_i hk
    refine List.nodup_append.2 ⟨h, by simp, ?_⟩
    intro a ha b hb hab
    rw [List.mem_singleton] at hb
    exact hk (hb ▸ hab ▸ ha)

theorem lookup_putEntry (k : κ) (v : α) (es : List (κ × α)) (q : κ) :
    (putEntry k v es).lookup q = if q = k then some v else es.lookup q := by
  induction es with
  | nil =>
    by_cases h : q = k
    · simp [putEntry, h]
    · simp [putEntry, List.lookup_cons, h, beq_eq_false_iff_ne.2 h]
  | cons e es ih =>
    obtain ⟨ek, ev⟩ := e
    by_cases h : ek = k
    · subst h
      by_cases hq : q = ek
      · simp [putEntry, hq]
      · simp [putEntry, List.lookup_cons, hq, beq_eq_false_iff_ne.2 hq]
    · by_cases hq : q = ek
      · subst hq
        simp [putEntry, h]
      · simp [putEntry, h, List.lookup_cons, beq_eq_false_iff_ne.2 hq, ih]

end Entries

/-! ## The type -/

/-- A finite map from texts that remembers the order in which its keys first came. -/
structure Dict (α : Type) where
  entries : List (String × α)
  distinct : (entries.map Prod.fst).Nodup
  deriving DecidableEq

namespace Dict

variable {α β : Type}

/-- The dictionary without keys. -/
def empty : Dict α := ⟨[], List.nodup_nil⟩

instance : EmptyCollection (Dict α) := ⟨empty⟩
instance : Inhabited (Dict α) := ⟨empty⟩

/-- The keys, in order. -/
def keys (d : Dict α) : List String := d.entries.map Prod.fst

/-- The values, in the order of their keys. -/
def values (d : Dict α) : List α := d.entries.map Prod.snd

/-- The value under a key. -/
def get? (d : Dict α) (k : String) : Option α := d.entries.lookup k

/-- How many keys there are. -/
def size (d : Dict α) : Nat := d.entries.length

/-- Write a value under a key. -/
def insert (d : Dict α) (k : String) (v : α) : Dict α :=
  ⟨putEntry k v d.entries, nodup_putEntry k v d.distinct⟩

/-- Write all pairs in turn. -/
def insertAll (d : Dict α) (es : List (String × α)) : Dict α :=
  es.foldl (fun d e => d.insert e.1 e.2) d

/-- The dictionary that results from writing the pairs in turn. -/
def ofList (es : List (String × α)) : Dict α := empty.insertAll es

/-- The same keys with changed values. -/
def map (f : α → β) (d : Dict α) : Dict β :=
  ⟨d.entries.map fun e => (e.1, f e.2), by simpa [Function.comp_def] using d.distinct⟩

/-- The entries that satisfy a test, in order. -/
def filter (p : String → α → Bool) (d : Dict α) : Dict α :=
  ⟨d.entries.filter fun e => p e.1 e.2, (List.filter_sublist.map Prod.fst).nodup d.distinct⟩

/-! ## What a write does -/

@[simp] theorem keys_empty : (empty : Dict α).keys = [] := rfl

@[simp] theorem get?_empty (q : String) : (empty : Dict α).get? q = none := rfl

theorem nodup_keys (d : Dict α) : d.keys.Nodup := d.distinct

theorem keys_insert (d : Dict α) (k : String) (v : α) :
    (d.insert k v).keys = if k ∈ d.keys then d.keys else d.keys ++ [k] :=
  keys_putEntry k v d.entries

@[simp] theorem mem_keys_insert (d : Dict α) (k : String) (v : α) (q : String) :
    q ∈ (d.insert k v).keys ↔ q ∈ d.keys ∨ q = k := by
  rw [keys_insert]
  split
  · rename_i h
    constructor
    · exact Or.inl
    · rintro (hq | rfl)
      · exact hq
      · exact h
  · simp

theorem get?_insert (d : Dict α) (k : String) (v : α) (q : String) :
    (d.insert k v).get? q = if q = k then some v else d.get? q :=
  lookup_putEntry k v d.entries q

end Dict

end Scaffold
