import Scaffold.Proofs.Association.Partition
import Scaffold.Proofs.Dict

/-!
# Arities and foreign keys

  Beside the two groups, a classification keeps the targets of associations by
  arity and the foreign keys that belongs-to associations bring. All three are
  made of the associations of known kinds alone, one after the other, so they
  can be told from the declarations: by the kind, the target and the key of
  each. Where records live is not asked for, neither of the owner nor of the
  other side; it only decides in which of the two groups an association stands.
-/

namespace Scaffold

/-! ## Declarations -/

namespace Association

/-- The declared kind is a known one that passes a test. -/
def Spec.isOfKind (p : Kind → Bool) (s : Spec) : Bool := (Kind.ofName? s.kind).any p

/-- Names and targets of the declared associations of an arity, in the order of declaration. -/
def targetsOf (arity : Arity) (specs : Dict Spec) : List (String × String) :=
  (specs.entries.filter (·.2.isOfKind (·.arity == arity))).map fun e => (e.1, e.2.target)

/-- The foreign keys of the declared belongs-to associations, in the order of declaration. -/
def foreignKeysOf (specs : Dict Spec) : List String :=
  (specs.entries.filter (·.2.isOfKind (·.shape == .belongsTo))).filterMap (·.2.targetKey)

/-- The declaration for a target that lives elsewhere. -/
def Spec.storedIn (s : Spec) (storage : Storage) : Spec := { s with targetStorage := storage }

/-- The declarations are the same, but for where the targets live. -/
def SameButStorage (specs specs' : Dict Spec) : Prop :=
  specs'.entries.map (fun e => (e.1, e.2.storedIn .sql)) =
    specs.entries.map fun e => (e.1, e.2.storedIn .sql)

section Same

variable {specs specs' : Dict Spec} (h : SameButStorage specs specs')
include h

/-- What does not ask for the storage is the same of both. -/
theorem SameButStorage.filterMap_eq {β : Type} {f : String × Spec → Option β}
    (hf : ∀ e, f (e.1, e.2.storedIn .sql) = f e) :
    specs'.entries.filterMap f = specs.entries.filterMap f := by
  have hmap : ∀ es : List (String × Spec),
      (es.map fun e => (e.1, e.2.storedIn .sql)).filterMap f = es.filterMap f := by
    intro es
    rw [List.filterMap_map]
    exact List.filterMap_congr fun e _ => hf e
  rw [← hmap, h, hmap]

theorem SameButStorage.targetsOf_eq (arity : Arity) : targetsOf arity specs' = targetsOf arity specs := by
  simp only [targetsOf, ← List.filterMap_eq_map, List.filterMap_filter]
  exact h.filterMap_eq fun e => rfl

theorem SameButStorage.foreignKeysOf_eq : foreignKeysOf specs' = foreignKeysOf specs := by
  simp only [foreignKeysOf, List.filterMap_filter]
  exact h.filterMap_eq fun e => rfl

end Same

end Association

/-! ## Resolving -/

/-- Whether an association is refused does not depend on where its target lives. -/
theorem Resolution.isOk_storedIn (policy : Policy) (name : String) (s : Association.Spec)
    (storage : Storage) : (of policy name (s.storedIn storage)).isOk = (of policy name s).isOk := by
  have hkind : (s.storedIn storage).kind = s.kind := rfl
  have hlacks : ∀ kind, (s.storedIn storage).lacks kind = s.lacks kind := fun _ => rfl
  unfold of
  rw [hkind]
  cases Kind.ofName? s.kind with
  | none => cases policy <;> rfl
  | some kind =>
      dsimp only
      rw [hlacks]
      cases s.lacks kind <;> rfl

namespace Classification

/-- A classification fails or succeeds wherever the owner and the targets live. -/
theorem exists_of_sameButStorage {owner : Storage} {policy : Policy}
    {specs specs' : Dict Association.Spec} (hsame : Association.SameButStorage specs specs')
    {c : Classification} (h : of owner policy specs = .ok c) (owner' : Storage) :
    ∃ c', of owner' policy specs' = .ok c' := by
  obtain ⟨rs, hrs, -⟩ := bind_eq_ok_iff.mp h
  have hall : ∀ e ∈ specs'.entries, ∃ r, Resolution.of policy e.1 e.2 = .ok r := by
    intro e' he'
    have hmem : (e'.1, e'.2.storedIn .sql) ∈ specs.entries.map fun e => (e.1, e.2.storedIn .sql) :=
      hsame ▸ List.mem_map_of_mem he'
    obtain ⟨e, he, heq⟩ := List.mem_map.mp hmem
    obtain ⟨hname, hspec⟩ := Prod.mk.inj heq
    obtain ⟨r, hr⟩ := forall_of_mapM_eq_ok hrs e he
    have hok : (Resolution.of policy e'.1 e'.2).isOk = true := by
      rw [← Resolution.isOk_storedIn policy e'.1 e'.2 .sql, ← hname, ← hspec,
        Resolution.isOk_storedIn]
      exact congrArg Except.isOk hr
    cases hr' : Resolution.of policy e'.1 e'.2 with
    | ok r' => exact ⟨r', rfl⟩
    | error f => rw [hr'] at hok; exact nomatch hok
  obtain ⟨rs', hrs'⟩ := exists_mapM_eq_ok hall
  exact ⟨ofResolutions owner' rs', bind_eq_ok_iff.mpr ⟨rs', hrs', rfl⟩⟩

/-! ## What the declarations tell -/

/-- The known associations whose kind passes a test, by their declarations. -/
theorem declarations_filter_known (p : Kind → Bool) (es : List (String × Association.Spec)) :
    ((known es).filter (p ·.kind)).map (fun a => (a.name, a.spec)) =
      es.filter (·.2.isOfKind p) := by
  induction es with
  | nil => rfl
  | cons e es ih =>
      rw [known] at ih ⊢
      rw [List.map_cons, List.filterMap_cons, List.filter_cons, Association.Spec.isOfKind,
        Resolution.resolved]
      cases Kind.ofName? e.2.kind with
      | none => exact ih
      | some kind =>
          dsimp only [Resolution.known?]
          rw [List.filter_cons, Option.any_some]
          cases p kind with
          | true => exact congrArg (e :: ·) ih
          | false => exact ih

theorem nodup_names_known (specs : Dict Association.Spec) :
    ((known specs.entries).map Association.name).Nodup :=
  (Resolution.known_sublist specs.entries).nodup specs.distinct

/-- The associations of one arity have entries of their own, in the order of declaration. -/
theorem entries_targets (arity : Arity) (specs : Dict Association.Spec) :
    (targets arity (known specs.entries)).entries =
      ((known specs.entries).filter (·.arity == arity)).map fun a => (a.name, a.target) := by
  refine Dict.entries_insertAll (d := Dict.empty) ?_
  rw [Dict.keys_empty, List.nil_append, List.map_map]
  exact (List.filter_sublist.map Association.name).nodup (nodup_names_known specs)

theorem entries_targets_eq_targetsOf (arity : Arity) (specs : Dict Association.Spec) :
    (targets arity (known specs.entries)).entries = Association.targetsOf arity specs := by
  rw [entries_targets, Association.targetsOf, ← declarations_filter_known, List.map_map]
  rfl

/-- The foreign keys of belongs-to associations, all of one type, each where it first comes. -/
theorem entries_keysOf (specs : Dict Association.Spec) :
    (keysOf (known specs.entries)).entries =
      (Association.foreignKeysOf specs).eraseDups.map (·, foreignKeyType) := by
  rw [← Dict.entries_ofList_const, Association.foreignKeysOf, ← declarations_filter_known,
    List.filterMap_map, List.map_filterMap]
  rfl

/-- The names of one arity and those of the other are the names of the known associations. -/
theorem names_perm_known (specs : Dict Association.Spec) :
    ((targets .many (known specs.entries)).keys ++ (targets .one (known specs.entries)).keys).Perm
      ((known specs.entries).map Association.name) := by
  have hnames : ∀ arity, (targets arity (known specs.entries)).keys =
      ((known specs.entries).filter (·.arity == arity)).map Association.name := by
    intro arity
    rw [Dict.keys, entries_targets, List.map_map]
    rfl
  have hone : (known specs.entries).filter (·.arity == .one) =
      (known specs.entries).filter (!·.arity == .many) :=
    List.filter_congr fun a _ => by cases a.arity <;> rfl
  rw [hnames, hnames, hone, ← List.map_append]
  exact (List.filter_append_perm (·.arity == .many) (known specs.entries)).map Association.name

/-! ## Classifications -/

/-- What a classification keeps of the declarations, whatever the storage on either side. -/
structure ByArity (specs : Dict Association.Spec) (c : Classification) : Prop where
  many : c.many.entries = Association.targetsOf .many specs
  one : c.one.entries = Association.targetsOf .one specs
  disjoint : c.many.keys.Disjoint c.one.keys
  /-- The names are those of the associations in the two groups, each once. -/
  names : (c.many.keys ++ c.one.keys).Perm
    ((c.implicit.listed ++ c.explicit.listed).map Association.name)
  mutationAttributes : c.mutationAttributes =
    ", ".intercalate ((Association.foreignKeysOf specs).eraseDups.map fun key => s!"{key}: Int")

theorem byArity_of_ok {owner : Storage} {policy : Policy} {specs : Dict Association.Spec}
    {c : Classification} (h : of owner policy specs = .ok c) : ByArity specs c := by
  have hc := eq_of_ok h
  subst hc
  have hnames := names_perm_known specs
  refine ⟨entries_targets_eq_targetsOf .many specs, entries_targets_eq_targetsOf .one specs, ?_,
    ?_, ?_⟩
  · exact (List.nodup_append'.mp (hnames.nodup_iff.mpr (nodup_names_known specs))).2.2
  · exact hnames.trans ((listed_perm_known owner specs.entries).symm.map Association.name)
  · show Attributes.parameters (keysOf (known specs.entries)).entries = _
    rw [entries_keysOf, Attributes.parameters, List.map_map]
    exact congrArg _ (List.map_congr_left fun key _ => String.append_assoc)

/-- **Arities and foreign keys** of a classification follow from the declarations: the targets of
    either arity under their names, and the keys of belongs-to associations without repeats, all in
    the order of declaration. Together the two arities have the names of the associations in the two
    groups. Declarations that differ only in where the targets live, for an owner that lives
    anywhere, give the same. -/
theorem arities_of_ok {owner : Storage} {policy : Policy} {specs : Dict Association.Spec}
    {c : Classification} (h : of owner policy specs = .ok c) :
    ByArity specs c ∧
      ∀ owner' specs', Association.SameButStorage specs specs' →
        ∃ c', of owner' policy specs' = .ok c' ∧ c'.many = c.many ∧ c'.one = c.one ∧
          c'.mutationAttributes = c.mutationAttributes := by
  have harity := byArity_of_ok h
  refine ⟨harity, fun owner' specs' hsame => ?_⟩
  obtain ⟨c', hc'⟩ := exists_of_sameButStorage hsame h owner'
  have harity' := byArity_of_ok hc'
  refine ⟨c', hc', Dict.ext ?_, Dict.ext ?_, ?_⟩
  · rw [harity'.many, harity.many, hsame.targetsOf_eq]
  · rw [harity'.one, harity.one, hsame.targetsOf_eq]
  · rw [harity'.mutationAttributes, harity.mutationAttributes, hsame.foreignKeysOf_eq]

/-- Associations of both arities, two of them with one foreign key. -/
def editions (storage : Storage) : Dict Association.Spec := .ofList
  [("publisher", { kind := "sql_belongsTo", target := "Publisher", targetStorage := storage
                   targetKey := some "publisherId" }),
    ("copies", { kind := "sql_hasMany", target := "Copy", targetStorage := storage
                 targetKey := some "editionId" }),
    ("shelf", { kind := "sql_onShelf", target := "Shelf", targetStorage := storage
                targetKey := some "shelfId" }),
    ("imprint", { kind := "cross_belongsTo", target := "Publisher", targetStorage := .webservice
                  targetKey := some "publisherId" }),
    ("author", { kind := "cross_belongsTo", target := "Author", targetStorage := storage
                 targetKey := some "authorId" })]

/-- Whatever storage they have, two arities and two foreign keys come of these associations. -/
theorem arities_of_ok_sample :
    ∃ c, of .sql .skip (editions .sql) = .ok c ∧ ByArity (editions .sql) c ∧
      c.many.entries = [("copies", "Copy")] ∧
      c.one.entries = [("publisher", "Publisher"), ("imprint", "Publisher"), ("author", "Author")] ∧
      c.mutationAttributes = "publisherId: Int, authorId: Int" ∧
      ∃ c', of .webservice .skip (editions .webservice) = .ok c' ∧ c'.many = c.many ∧
        c'.one = c.one ∧ c'.mutationAttributes = c.mutationAttributes := by
  have hok : of .sql .skip (editions .sql) =
      .ok (ofResolutions .sql ((editions .sql).entries.map Resolution.resolved)) := by
    decide +kernel
  have hsame : Association.SameButStorage (editions .sql) (editions .webservice) := by
    unfold Association.SameButStorage
    decide +kernel
  obtain ⟨harity, hall⟩ := arities_of_ok hok
  exact ⟨_, hok, harity, by decide +kernel, by decide +kernel, by decide +kernel,
    hall .webservice (editions .webservice) hsame⟩

end Classification

end Scaffold
