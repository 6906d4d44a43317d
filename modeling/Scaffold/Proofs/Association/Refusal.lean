import Scaffold.Proofs.Association.Partition

/-!
# Refused associations

  A classification fails for one of its associations, and the order of
  declaration says for which. Whether an association is refused is settled by
  its own declaration: a kind that does not exist, where such kinds are
  rejected, or a key that its shape needs and that is not given. Since the
  associations are resolved one by one, the first of those that are refused
  decides, and where none is, every association has the keys of its shape.
-/

namespace Scaffold

/-- Kinds and their names determine each other. -/
theorem Kind.ofName?_eq_some_iff {text : String} {kind : Kind} :
    ofName? text = some kind ↔ kind.name = text := by
  constructor
  · exact name_of_ofName?
  · rintro rfl
    exact ofName?_name kind

/-! ## Declarations -/

namespace Association.Spec

/-- A key that associations of the shape need is not given. -/
inductive Misses (s : Spec) : Shape → String → Prop where
  | targetKey : s.targetKey = none → Misses s .belongsTo "targetKey"
  | keysIn : s.keysIn = none → Misses s .belongsToMany "keysIn"

/-- An association of this kind, or without this key, is not accepted. -/
def IsBad (policy : Policy) (s : Spec) : Prop :=
  (policy = .reject ∧ ¬ Kind.IsName s.kind) ∨
    ∃ (kind : Kind) (key : String), kind.name = s.kind ∧ s.Misses kind.shape key

/-- The failure for which the association is refused under that name. -/
inductive Refused (policy : Policy) (name : String) (s : Spec) : Failure → Prop where
  | unknownKind : policy = .reject → ¬ Kind.IsName s.kind →
      Refused policy name s (.unsupportedKind name s.kind)
  | missingKey {kind : Kind} {key : String} : kind.name = s.kind → s.Misses kind.shape key →
      Refused policy name s (.malformed s!"association '{name}'" (.keyRequired kind key))

variable {policy : Policy} {s : Spec}

/-- Bad associations are those that are refused, for whatever failure. -/
theorem isBad_iff_exists_refused (name : String) :
    s.IsBad policy ↔ ∃ f, s.Refused policy name f := by
  constructor
  · rintro (⟨hpolicy, hname⟩ | ⟨kind, key, hkind, hkey⟩)
    · exact ⟨_, .unknownKind hpolicy hname⟩
    · exact ⟨_, .missingKey hkind hkey⟩
  · rintro ⟨f, hf⟩
    cases hf with
    | unknownKind hpolicy hname => exact Or.inl ⟨hpolicy, hname⟩
    | missingKey hkind hkey => exact Or.inr ⟨_, _, hkind, hkey⟩

theorem lacks_eq_some_iff {kind : Kind} {key : String} :
    s.lacks kind = some key ↔ s.Misses kind.shape key := by
  rw [lacks]
  constructor
  · intro h
    split at h
    · rename_i hshape
      obtain ⟨hnone, hkey⟩ := Option.ite_none_right_eq_some.mp h
      rw [hshape, ← Option.some.inj hkey]
      exact .targetKey (Option.isNone_iff_eq_none.mp hnone)
    · rename_i hshape
      obtain ⟨hnone, hkey⟩ := Option.ite_none_right_eq_some.mp h
      rw [hshape, ← Option.some.inj hkey]
      exact .keysIn (Option.isNone_iff_eq_none.mp hnone)
    · exact nomatch h
    · exact nomatch h
  · intro h
    generalize kind.shape = shape at h
    cases h with
    | targetKey hnone => rw [hnone]; rfl
    | keysIn hnone => rw [hnone]; rfl

end Association.Spec

/-! ## One association -/

/-- An association does not resolve exactly if it is refused. -/
theorem Resolution.of_eq_error_iff {policy : Policy} {name : String} {s : Association.Spec}
    {f : Failure} : of policy name s = .error f ↔ s.Refused policy name f := by
  unfold of
  cases hkind : Kind.ofName? s.kind with
  | none =>
      have hname := (Kind.ofName?_eq_none_iff s.kind).mp hkind
      constructor
      · intro h
        cases policy with
        | skip => exact nomatch h
        | reject =>
            rw [← Except.error.inj h]
            exact .unknownKind rfl hname
      · intro h
        cases h with
        | unknownKind hpolicy _ => rw [hpolicy]
        | missingKey hkind' _ =>
            rw [Kind.ofName?_eq_some_iff.mpr hkind'] at hkind
            exact nomatch hkind
  | some kind =>
      have hknown := Kind.ofName?_eq_some_iff.mp hkind
      constructor
      · intro h
        dsimp only at h
        split at h
        · rename_i key hkey
          rw [← Except.error.inj h]
          exact .missingKey hknown (Association.Spec.lacks_eq_some_iff.mp hkey)
        · exact nomatch h
      · intro h
        cases h with
        | unknownKind _ hname =>
            rw [(Kind.ofName?_eq_none_iff s.kind).mpr hname] at hkind
            exact nomatch hkind
        | missingKey hkind' hkey =>
            -- the name belongs to one kind only
            rw [Kind.ofName?_eq_some_iff.mpr hkind'] at hkind
            cases hkind
            dsimp only
            rw [Association.Spec.lacks_eq_some_iff.mpr hkey]

theorem Resolution.exists_ok_iff {policy : Policy} {name : String} {s : Association.Spec} :
    (∃ r, of policy name s = .ok r) ↔ ¬ s.IsBad policy := by
  rw [Association.Spec.isBad_iff_exists_refused name]
  simp only [← of_eq_error_iff]
  cases of policy name s <;> simp

/-! ## All associations -/

/-- The failure is that of the first bad association in the order of declaration. -/
def Association.FirstRefused (policy : Policy) (specs : Dict Association.Spec) (f : Failure) :
    Prop :=
  ∃ before name s after, specs.entries = before ++ (name, s) :: after ∧
    (∀ e ∈ before, ¬ e.2.IsBad policy) ∧ s.Refused policy name f

namespace Classification

/-- Every association that needs a key has it. -/
structure HasKeys (c : Classification) : Prop where
  targetKey : ∀ g ∈ [c.implicit, c.explicit], ∀ a ∈ g.ofShape .belongsTo,
    ∃ key, a.spec.targetKey = some key
  keysIn : ∀ g ∈ [c.implicit, c.explicit], ∀ a ∈ g.ofShape .belongsToMany,
    ∃ table, a.spec.keysIn = some table

variable {owner : Storage} {policy : Policy} {specs : Dict Association.Spec}

theorem of_eq_error_iff {f : Failure} :
    of owner policy specs = .error f ↔ Association.FirstRefused policy specs f := by
  have hmapM : of owner policy specs = .error f ↔
      (specs.entries.mapM fun e => Resolution.of policy e.1 e.2) = .error f := by
    show (specs.entries.mapM fun e => Resolution.of policy e.1 e.2).bind
      (fun rs => .ok (ofResolutions owner rs)) = _ ↔ _
    cases specs.entries.mapM fun e => Resolution.of policy e.1 e.2 with
    | error f' => simp [Except.bind]
    | ok rs => simp [Except.bind]
  rw [hmapM, mapM_eq_error_iff]
  simp only [Resolution.exists_ok_iff, Resolution.of_eq_error_iff, Prod.exists,
    Association.FirstRefused]

theorem exists_error_iff :
    (∃ f, of owner policy specs = .error f) ↔ ∃ e ∈ specs.entries, e.2.IsBad policy := by
  constructor
  · rintro ⟨f, hf⟩
    obtain ⟨before, name, s, after, hentries, -, hrefused⟩ := of_eq_error_iff.mp hf
    refine ⟨(name, s), hentries ▸ List.mem_append_right before List.mem_cons_self, ?_⟩
    exact (Association.Spec.isBad_iff_exists_refused name).mpr ⟨f, hrefused⟩
  · rintro ⟨e, he, hbad⟩
    cases hc : of owner policy specs with
    | error f => exact ⟨f, rfl⟩
    | ok c =>
        obtain ⟨rs, hrs, -⟩ := bind_eq_ok_iff.mp hc
        exact absurd hbad (Resolution.exists_ok_iff.mp (forall_of_mapM_eq_ok hrs e he))

/-- The associations of both groups are known ones. -/
theorem mem_known_of_ok {c : Classification} (h : of owner policy specs = .ok c)
    {g : Association.Groups} (hg : g ∈ [c.implicit, c.explicit]) {a : Association}
    (ha : a ∈ g.members) : a ∈ known specs.entries := by
  obtain rfl := eq_of_ok h
  rcases List.mem_pair.mp hg with rfl | rfl
  · exact (List.mem_filter.mp ha).1
  · exact (List.mem_filter.mp ha).1

theorem not_misses_of_ok {c : Classification} (h : of owner policy specs = .ok c)
    {g : Association.Groups} (hg : g ∈ [c.implicit, c.explicit]) {shape : Shape} {a : Association}
    (ha : a ∈ g.ofShape shape) (key : String) : ¬ a.spec.Misses shape key := by
  obtain ⟨hmem, hshape⟩ := List.mem_filter.mp ha
  obtain ⟨hentry, hkind⟩ := Resolution.mem_known_iff.mp (mem_known_of_ok h hg hmem)
  intro hmisses
  rw [← beq_iff_eq.mp hshape] at hmisses
  have hbad : a.spec.IsBad policy := Or.inr ⟨a.kind, key, Kind.name_of_ofName? hkind, hmisses⟩
  obtain ⟨f, hf⟩ := (@exists_error_iff owner policy specs).mpr ⟨_, hentry, hbad⟩
  exact nomatch h.symm.trans hf

theorem hasKeys_of_ok {c : Classification} (h : of owner policy specs = .ok c) : c.HasKeys where
  targetKey _ hg _ ha :=
    Option.ne_none_iff_exists'.mp fun hnone => not_misses_of_ok h hg ha _ (.targetKey hnone)
  keysIn _ hg _ ha :=
    Option.ne_none_iff_exists'.mp fun hnone => not_misses_of_ok h hg ha _ (.keysIn hnone)

/-- **The first bad association decides.** A classification fails exactly if one of the declared
    associations is bad, and then for what is wrong with the first of them. Where unknown kinds are
    skipped it does not fail for an unknown kind, and if it does not fail at all, every association
    has the keys that it needs. Where the owner's records live makes no difference. -/
theorem fails_at_first_bad (owner : Storage) (policy : Policy) (specs : Dict Association.Spec) :
    ((∃ f, of owner policy specs = .error f) ↔ ∃ e ∈ specs.entries, e.2.IsBad policy) ∧
    (∀ f, of owner policy specs = .error f ↔ Association.FirstRefused policy specs f) ∧
    (∀ name kind, of owner .skip specs ≠ .error (.unsupportedKind name kind)) ∧
    ∀ c, of owner policy specs = .ok c → c.HasKeys := by
  refine ⟨exists_error_iff, fun f => of_eq_error_iff, fun name kind h => ?_,
    fun c => hasKeys_of_ok⟩
  obtain ⟨-, _, s, -, -, -, hrefused⟩ := of_eq_error_iff.mp h
  cases hrefused with
  | unknownKind hpolicy _ => exact nomatch hpolicy

/-- Two bad associations, the first of which is bad only where unknown kinds are rejected. -/
def twoFaults : Dict Association.Spec := .ofList
  [("tags", { kind := "sql_hasAny", target := "Tag", targetStorage := .sql }),
    ("owner", { kind := "cross_belongsTo", target := "Person", targetStorage := .sql })]

example : of .sql .reject twoFaults = .error (.unsupportedKind "tags" "sql_hasAny") := by
  decide +kernel

example : of .sql .skip twoFaults =
    .error (.malformed "association 'owner'" (.keyRequired .crossBelongsTo "targetKey")) := by
  decide +kernel

end Classification

end Scaffold
