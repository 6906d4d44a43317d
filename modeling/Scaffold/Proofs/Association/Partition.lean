import Mathlib.Data.List.Perm.Basic
import Mathlib.Data.List.Nodup
import Scaffold.Association.Classification
import Scaffold.Proofs.Except

/-!
# Every association in one place

  Classification resolves the declared associations one by one, and then takes
  the resolved ones apart three times: known from unknown, implicit from
  explicit, and by shape. Each time a list is cut by a test, so nothing is
  lost, nothing comes twice, and the order of declaration stays.
-/

namespace Scaffold

/-! ## Groups -/

namespace Association.Groups

/-- The members of a group, shape by shape, are its members. -/
theorem listed_perm (g : Groups) : g.listed.Perm g.members := by
  obtain ⟨members⟩ := g
  show (Shape.all.flatMap fun s => members.filter (·.shape == s)).Perm members
  induction members with
  | nil => exact List.Perm.nil
  | cons a members ih =>
      -- the first member is in the group of its shape and in no other
      rw [List.perm_iff_count] at ih ⊢
      intro b
      rw [List.count_cons, ← ih b]
      simp only [Shape.all, List.flatMap_cons, List.flatMap_nil, List.append_nil]
      cases hs : a.shape <;> simp [hs, List.count_cons] <;> omega

theorem size_eq_length (g : Groups) : g.size = g.listed.length := by
  simp [size, listed, Shape.all]
  omega

end Association.Groups

/-! ## Resolving -/

/-- What an association resolves to if it is not refused. -/
def Resolution.resolved (e : String × Association.Spec) : Resolution :=
  match Kind.ofName? e.2.kind with
  | none => .unsupported e.1 e.2.kind
  | some kind => .known ⟨e.1, kind, e.2⟩

/-- The name of the association. -/
def Resolution.name : Resolution → String
  | known a => a.name
  | unsupported name _ => name

@[simp] theorem Resolution.name_resolved (e : String × Association.Spec) :
    (resolved e).name = e.1 := by
  rw [resolved]
  cases Kind.ofName? e.2.kind <;> rfl

/-- An association that is not refused has only one resolution, under any policy. -/
theorem Resolution.eq_resolved {policy : Policy} {e : String × Association.Spec} {r : Resolution}
    (h : Resolution.of policy e.1 e.2 = .ok r) : r = resolved e := by
  unfold Resolution.of at h
  rw [resolved]
  cases hk : Kind.ofName? e.2.kind with
  | none =>
      rw [hk] at h
      cases policy with
      | reject => exact nomatch h
      | skip => exact (Except.ok.inj h).symm
  | some kind =>
      rw [hk] at h
      cases hl : e.2.lacks kind with
      | some key => simp only [hl] at h; exact nomatch h
      | none => simp only [hl] at h; exact (Except.ok.inj h).symm

theorem Classification.eq_of_ok {owner : Storage} {policy : Policy}
    {specs : Dict Association.Spec} {c : Classification}
    (h : Classification.of owner policy specs = .ok c) :
    c = ofResolutions owner (specs.entries.map Resolution.resolved) := by
  obtain ⟨rs, hrs, h⟩ := bind_eq_ok_iff.mp h
  rw [← eq_map_of_mapM_eq_ok (fun e r => Resolution.eq_resolved) hrs]
  exact (Except.ok.inj h).symm

/-! ## Taking resolved associations apart -/

namespace Resolution

/-- The known and the unknown ones together are all of them. -/
theorem names_perm (rs : List Resolution) :
    ((rs.filterMap known?).map Association.name ++
      (rs.filterMap unsupported?).map Prod.fst).Perm (rs.map name) := by
  induction rs with
  | nil => exact List.Perm.nil
  | cons r rs ih =>
      cases r with
      | known a => exact ih.cons a.name
      | unsupported name kind => exact List.perm_middle.trans (ih.cons name)

/-- A resolved association is known with its own kind and declaration. -/
theorem mem_known_iff {es : List (String × Association.Spec)} {a : Association} :
    a ∈ (es.map resolved).filterMap known? ↔
      (a.name, a.spec) ∈ es ∧ Kind.ofName? a.spec.kind = some a.kind := by
  obtain ⟨name, kind, spec⟩ := a
  rw [List.filterMap_map, List.mem_filterMap]
  constructor
  · rintro ⟨⟨n, s⟩, he, h⟩
    cases hk : Kind.ofName? s.kind with
    | none => simp [resolved, hk, known?] at h
    | some k =>
        simp only [Function.comp_apply, resolved, hk, known?, Option.some.injEq,
          Association.mk.injEq] at h
        obtain ⟨rfl, rfl, rfl⟩ := h
        exact ⟨he, hk⟩
  · rintro ⟨he, hk⟩
    exact ⟨(name, spec), he, by simp [resolved, hk, known?]⟩

/-- A resolved association is unknown with the kind that was declared. -/
theorem mem_unsupported_iff {es : List (String × Association.Spec)} {p : String × String} :
    p ∈ (es.map resolved).filterMap unsupported? ↔
      ∃ s, (p.1, s) ∈ es ∧ s.kind = p.2 ∧ Kind.ofName? s.kind = none := by
  obtain ⟨name, kind⟩ := p
  rw [List.filterMap_map, List.mem_filterMap]
  constructor
  · rintro ⟨⟨n, s⟩, he, h⟩
    cases hk : Kind.ofName? s.kind with
    | some k => simp [resolved, hk, unsupported?] at h
    | none =>
        simp only [Function.comp_apply, resolved, hk, unsupported?, Option.some.injEq,
          Prod.mk.injEq] at h
        obtain ⟨rfl, rfl⟩ := h
        exact ⟨s, he, rfl, hk⟩
  · rintro ⟨s, he, rfl, hk⟩
    exact ⟨(name, s), he, by simp [resolved, hk, unsupported?]⟩

/-- The known ones stand in the order of declaration. -/
theorem known_sublist (es : List (String × Association.Spec)) :
    (((es.map resolved).filterMap known?).map Association.name).Sublist (es.map Prod.fst) := by
  induction es with
  | nil => exact List.Sublist.slnil
  | cons e es ih =>
      rw [List.map_cons, List.filterMap_cons, List.map_cons, resolved]
      cases Kind.ofName? e.2.kind with
      | none => exact ih.cons e.1
      | some kind => exact ih.cons_cons e.1

/-- The unknown ones stand in the order of declaration. -/
theorem unsupported_sublist (es : List (String × Association.Spec)) :
    (((es.map resolved).filterMap unsupported?).map Prod.fst).Sublist (es.map Prod.fst) := by
  induction es with
  | nil => exact List.Sublist.slnil
  | cons e es ih =>
      rw [List.map_cons, List.filterMap_cons, List.map_cons, resolved]
      cases Kind.ofName? e.2.kind with
      | none => exact ih.cons_cons e.1
      | some kind => exact ih.cons e.1

end Resolution

/-! ## The partition -/

/-- A name of one of the kinds. -/
def Kind.IsName (text : String) : Prop := text ∈ Kind.all.map Kind.name

theorem Kind.ofName?_eq_none_iff (text : String) : ofName? text = none ↔ ¬ IsName text := by
  simp [ofName?, IsName]

theorem Kind.name_of_ofName? {text : String} {kind : Kind} (h : ofName? text = some kind) :
    kind.name = text := by
  simpa using List.find?_some h

/-- A dictionary has one value under a key. -/
theorem Dict.entries_unique {α : Type} (d : Dict α) {k : String} {v w : α}
    (hv : (k, v) ∈ d.entries) (hw : (k, w) ∈ d.entries) : v = w := by
  have hinj := List.inj_on_of_nodup_map d.distinct hv hw rfl
  exact (Prod.mk.inj hinj).2

namespace Classification

/-- The associations of the known kinds among resolutions. -/
def known (es : List (String × Association.Spec)) : List Association :=
  (es.map Resolution.resolved).filterMap Resolution.known?

theorem isImplicit_iff {owner : Storage} {a : Association} :
    isImplicit owner a = true ↔ owner = .sql ∧ a.spec.targetStorage = .sql := by
  rw [isImplicit, Bool.and_eq_true]
  cases owner <;> cases a.spec.targetStorage <;> simp [Storage.isRelational]

/-- A declared association stands among the known ones that pass a test of its declaration when
    its kind is one of the kinds and its declaration passes. -/
theorem mem_names_filter_iff {specs : Dict Association.Spec} {p : Association → Bool}
    {q : Association.Spec → Prop} (hpq : ∀ a, p a = true ↔ q a.spec) {name : String}
    {s : Association.Spec} (h : (name, s) ∈ specs.entries) :
    name ∈ ((known specs.entries).filter p).map Association.name ↔ Kind.IsName s.kind ∧ q s := by
  constructor
  · intro hmem
    obtain ⟨a, ha, rfl⟩ := List.mem_map.mp hmem
    obtain ⟨hknown, hp⟩ := List.mem_filter.mp ha
    obtain ⟨he, hk⟩ := Resolution.mem_known_iff.mp hknown
    rw [specs.entries_unique h he]
    refine ⟨?_, (hpq a).mp hp⟩
    by_contra hno
    rw [← Kind.ofName?_eq_none_iff, hk] at hno
    exact nomatch hno
  · rintro ⟨hname, hq⟩
    cases hk : Kind.ofName? s.kind with
    | none => exact absurd hname ((Kind.ofName?_eq_none_iff s.kind).mp hk)
    | some kind =>
        refine List.mem_map.mpr ⟨⟨name, kind, s⟩, List.mem_filter.mpr ⟨?_, ?_⟩, rfl⟩
        · exact Resolution.mem_known_iff.mpr ⟨h, hk⟩
        · exact (hpq _).mpr hq

theorem mem_names_unsupported_iff {specs : Dict Association.Spec} {name : String}
    {s : Association.Spec} (h : (name, s) ∈ specs.entries) :
    name ∈ ((specs.entries.map Resolution.resolved).filterMap
        Resolution.unsupported?).map Prod.fst ↔ ¬ Kind.IsName s.kind := by
  rw [← Kind.ofName?_eq_none_iff]
  constructor
  · intro hmem
    obtain ⟨p, hp, rfl⟩ := List.mem_map.mp hmem
    obtain ⟨s', he, -, hk⟩ := Resolution.mem_unsupported_iff.mp hp
    rw [specs.entries_unique h he]
    exact hk
  · intro hk
    exact List.mem_map.mpr ⟨(name, s.kind), Resolution.mem_unsupported_iff.mpr ⟨s, h, rfl, hk⟩, rfl⟩

/-- A group of known associations lists their names in the order of declaration. -/
theorem names_filter_sublist (es : List (String × Association.Spec)) (p : Association → Bool)
    (shape : Shape) :
    (((⟨(known es).filter p⟩ : Association.Groups).ofShape shape).map Association.name).Sublist
      (es.map Prod.fst) :=
  ((List.filter_sublist.trans List.filter_sublist).map _).trans (Resolution.known_sublist es)

/-- A group of known associations holds, under a shape, declared ones of this shape. -/
theorem mem_ofShape_filter {es : List (String × Association.Spec)} {p : Association → Bool}
    {shape : Shape} {a : Association}
    (h : a ∈ (⟨(known es).filter p⟩ : Association.Groups).ofShape shape) :
    (a.name, a.spec) ∈ es ∧ a.kind.name = a.spec.kind ∧ a.kind.shape = shape := by
  obtain ⟨hmem, hshape⟩ := List.mem_filter.mp h
  obtain ⟨he, hk⟩ := Resolution.mem_known_iff.mp (List.mem_filter.mp hmem).1
  exact ⟨he, Kind.name_of_ofName? hk, beq_iff_eq.mp hshape⟩

/-- The two groups together are the known associations. -/
theorem listed_perm_known (owner : Storage) (es : List (String × Association.Spec)) :
    let c := ofResolutions owner (es.map Resolution.resolved)
    (c.implicit.listed ++ c.explicit.listed).Perm (known es) := by
  intro c
  exact ((c.implicit.listed_perm).append c.explicit.listed_perm).trans
    (List.filter_append_perm (isImplicit owner) (known es))

/-- The names in the two groups and among the unsupported are the declared names. -/
theorem names_perm_keys (owner : Storage) (specs : Dict Association.Spec) :
    let c := ofResolutions owner (specs.entries.map Resolution.resolved)
    (c.implicit.listed.map Association.name ++ c.explicit.listed.map Association.name
      ++ c.unsupported.map Prod.fst).Perm specs.keys := by
  intro c
  have hknown : (c.implicit.listed ++ c.explicit.listed).Perm (known specs.entries) :=
    listed_perm_known owner specs.entries
  have hnames : (specs.entries.map Resolution.resolved).map Resolution.name = specs.keys := by
    rw [List.map_map]
    exact List.map_congr_left fun e _ => Resolution.name_resolved e
  rw [← List.map_append, ← hnames]
  exact ((hknown.map Association.name).append_right _).trans (Resolution.names_perm _)

/-- The groups and the unsupported associations share out what has been declared. -/
structure Partition (owner : Storage) (specs : Dict Association.Spec) (c : Classification) :
    Prop where
  /-- Each declared name occurs once over all of them, and no other name occurs. -/
  once : ∀ name, (c.implicit.listed.map Association.name ++ c.explicit.listed.map Association.name
    ++ c.unsupported.map Prod.fst).count name = if name ∈ specs.keys then 1 else 0
  unsupported : ∀ name s, (name, s) ∈ specs.entries →
    (name ∈ c.unsupported.map Prod.fst ↔ ¬ Kind.IsName s.kind)
  implicit : ∀ name s, (name, s) ∈ specs.entries →
    (name ∈ c.implicit.listed.map Association.name ↔
      Kind.IsName s.kind ∧ owner = .sql ∧ s.targetStorage = .sql)
  explicit : ∀ name s, (name, s) ∈ specs.entries →
    (name ∈ c.explicit.listed.map Association.name ↔
      Kind.IsName s.kind ∧ ¬ (owner = .sql ∧ s.targetStorage = .sql))
  /-- Under a shape stand associations of this shape, each with its own declaration. -/
  carried : ∀ g ∈ [c.implicit, c.explicit], ∀ shape, ∀ a ∈ g.ofShape shape,
    (a.name, a.spec) ∈ specs.entries ∧ a.kind.name = a.spec.kind ∧ a.kind.shape = shape
  /-- Unsupported associations keep the kind with which they were declared. -/
  kept : ∀ p ∈ c.unsupported, ∃ s, (p.1, s) ∈ specs.entries ∧ s.kind = p.2
  /-- The order of declaration stays, under each shape and among the unsupported. -/
  order : (∀ g ∈ [c.implicit, c.explicit], ∀ shape,
      ((g.ofShape shape).map Association.name).Sublist specs.keys) ∧
    (c.unsupported.map Prod.fst).Sublist specs.keys
  total : c.size + c.unsupported.length = specs.size

/-- **Every association in one place**: whatever the owner's storage and the policy, a
    classification that succeeds shares out the declared associations. -/
theorem partition_of_ok {owner : Storage} {policy : Policy} {specs : Dict Association.Spec}
    {c : Classification} (h : Classification.of owner policy specs = .ok c) :
    Partition owner specs c := by
  have hc := eq_of_ok h
  subst hc
  have hperm := names_perm_keys owner specs
  refine ⟨?_, ?_, ?_, ?_, ?_, ?_, ⟨?_, ?_⟩, ?_⟩
  · intro name
    rw [hperm.count_eq, specs.nodup_keys.count]
  · exact fun name s hs => mem_names_unsupported_iff hs
  · intro name s hs
    rw [((Association.Groups.listed_perm _).map Association.name).mem_iff]
    exact mem_names_filter_iff (q := fun s => owner = .sql ∧ s.targetStorage = .sql)
      (fun a => isImplicit_iff) hs
  · intro name s hs
    rw [((Association.Groups.listed_perm _).map Association.name).mem_iff]
    refine mem_names_filter_iff (p := fun a => !isImplicit owner a)
      (q := fun s => ¬ (owner = .sql ∧ s.targetStorage = .sql)) (fun a => ?_) hs
    rw [Bool.not_eq_true', ← Bool.not_eq_true, isImplicit_iff]
  · intro g hg shape a ha
    simp only [List.mem_cons, List.not_mem_nil, or_false] at hg
    rcases hg with rfl | rfl <;> exact mem_ofShape_filter ha
  · intro p hp
    obtain ⟨s, he, hkind, -⟩ := Resolution.mem_unsupported_iff.mp hp
    exact ⟨s, he, hkind⟩
  · intro g hg shape
    simp only [List.mem_cons, List.not_mem_nil, or_false] at hg
    rcases hg with rfl | rfl <;> exact names_filter_sublist specs.entries _ shape
  · exact Resolution.unsupported_sublist specs.entries
  · have hlen := hperm.length_eq
    simp only [List.length_append, List.length_map] at hlen
    rw [size, Association.Groups.size_eq_length, Association.Groups.size_eq_length]
    rw [Dict.keys, List.length_map] at hlen
    rw [Dict.size]
    omega

/-- Associations of three shapes, one of them with a remote target, and one of an unknown kind. -/
def sampleSpecs : Dict Association.Spec := .ofList
  [("publisher", { kind := "sql_belongsTo", target := "Publisher", targetStorage := .sql
                   targetKey := some "publisherId" }),
    ("tags", { kind := "sql_hasAny", target := "Tag", targetStorage := .sql }),
    ("reviews", { kind := "cross_hasMany", target := "Review", targetStorage := .webservice }),
    ("authors", { kind := "sql_belongsToMany", target := "Author", targetStorage := .sql
                  keysIn := some "books_to_authors" })]

theorem partition_of_ok_sample :
    ∃ c, Classification.of .sql .skip sampleSpecs = .ok c ∧ Partition .sql sampleSpecs c ∧
      c.implicit.listed.map Association.name = ["publisher", "authors"] ∧
      c.explicit.listed.map Association.name = ["reviews"] ∧
      c.unsupported = [("tags", "sql_hasAny")] := by
  have hok : Classification.of .sql .skip sampleSpecs
      = .ok (ofResolutions .sql (sampleSpecs.entries.map Resolution.resolved)) := by
    decide +kernel
  exact ⟨_, hok, partition_of_ok hok, by decide +kernel, by decide +kernel, by decide +kernel⟩

end Classification

end Scaffold
