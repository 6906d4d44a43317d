import Mathlib
import Scaffold.Artifact.Resolvers
import Scaffold.Artifact.Schema
import Scaffold.Proofs.Association.Arities
import Scaffold.Proofs.Text.Case

/-!
# Association fields and the methods behind them

  The schema lists the fields of associations by arity and under the declared
  names; the resolvers list the methods behind them by storage and shape, and
  under names with a small first letter. Both give the same number of names for
  an association, whatever its kind and the storage on either side. So schema
  and resolvers agree, up to order, exactly if no declared name has a first
  letter to be lowered: lowering a letter cannot be made up for elsewhere,
  because what has been lowered is never lowered again.
-/

namespace Scaffold

open Naming

/-! ## The names for one association -/

namespace Association

/-- The names by which records lead to the other side, for an association that is called `name`. -/
def accessNames (a : Association) (name : String) : List String :=
  match a.arity with
  | .one => [name]
  | .many => [s!"{name}Filter", s!"countFiltered{a.nameCp}"]

theorem implicitMethods_names (a : Association) :
    (Resolvers.implicitMethods a).map Resolvers.Method.name = a.accessNames a.nameLc := by
  rw [Resolvers.implicitMethods, accessNames]
  cases a.arity <;> rfl

theorem explicitMethods_names (owner : Entity) (a : Association) :
    (Resolvers.explicitMethods owner a).map Resolvers.Method.name = a.accessNames a.nameLc := by
  obtain ⟨name, kind, spec⟩ := a
  cases kind <;> rfl

end Association

/-! ## Lowering letters -/

/-- The text begins with no letter to be lowered. -/
def Naming.IsLowered (text : String) : Prop := uncapitalize text = text

instance (text : String) : Decidable (IsLowered text) := inferInstanceAs (Decidable (_ = _))

theorem Naming.uncapitalize_append {name : String} (h : name ≠ "") (rest : String) :
    uncapitalize (name ++ rest) = uncapitalize name ++ rest := by
  rw [← String.toList_inj, toList_uncapitalize, String.toList_append, String.toList_append,
    toList_uncapitalize]
  cases hname : name.toList with
  | nil => exact absurd (String.toList_eq_nil_iff.mp hname) h
  | cons c cs => exact (List.append_assoc (Text.lowerOf c) cs rest.toList).symm

theorem Naming.isLowered_append_iff {name : String} (h : name ≠ "") (rest : String) :
    IsLowered (name ++ rest) ↔ IsLowered name := by
  rw [IsLowered, uncapitalize_append h, String.append_left_inj]
  rfl

namespace Association

/-- The names with a small first letter are the declared ones, if that letter is small; otherwise
    there is one more of them that begins with no letter to be lowered. -/
theorem accessNames_cases (a : Association) :
    (IsLowered a.name ∧ a.accessNames a.nameLc = a.accessNames a.name) ∨
      ¬ IsLowered a.name ∧
        (a.accessNames a.name).countP (IsLowered ·) < (a.accessNames a.nameLc).countP (IsLowered ·) := by
  by_cases hname : IsLowered a.name
  · refine Or.inl ⟨hname, ?_⟩
    rw [nameLc, hname]
  · refine Or.inr ⟨hname, ?_⟩
    have hlc : IsLowered a.nameLc := uncapitalize_idem a.name
    rw [accessNames, accessNames]
    cases a.arity with
    | one => simp [hname, hlc]
    | many =>
        have hne : a.name ≠ "" := by
          intro hempty
          rw [hempty] at hname
          exact hname (by decide)
        have hfilter : ¬ IsLowered s!"{a.name}Filter" :=
          fun h => hname ((isLowered_append_iff hne "Filter").mp h)
        have hfilter' : IsLowered s!"{a.nameLc}Filter" :=
          (isLowered_append_iff (uncapitalize_ne_empty hne) "Filter").mpr hlc
        -- the other name is the same on both sides
        simp [List.countP_cons, hfilter, hfilter']

end Association

/-- Names with small first letters throughout are the declared ones, up to order, only if each
    declared name has one. -/
theorem accessNames_perm_iff (as : List Association) :
    (as.flatMap fun a => a.accessNames a.name).Perm (as.flatMap fun a => a.accessNames a.nameLc) ↔
      ∀ a ∈ as, IsLowered a.name := by
  constructor
  · intro hperm a ha
    by_contra hname
    have hcount := hperm.countP_eq (IsLowered ·)
    rw [List.countP_flatMap, List.countP_flatMap] at hcount
    -- no association has fewer lowered names on the right, and `a` has more
    refine absurd hcount (Nat.ne_of_lt (List.sum_lt_sum _ _ ?_ ⟨a, ha, ?_⟩))
    · intro b _
      rcases b.accessNames_cases with ⟨-, heq⟩ | ⟨-, hlt⟩
      · simp only [Function.comp_apply, heq, le_refl]
      · exact Nat.le_of_lt hlt
    · rcases a.accessNames_cases with ⟨hlc, -⟩ | ⟨-, hlt⟩
      · exact absurd hlc hname
      · exact hlt
  · intro h
    have heq : ∀ a ∈ as, a.accessNames a.name = a.accessNames a.nameLc := by
      intro a ha
      rw [Association.nameLc, h a ha]
    rw [List.flatMap_congr heq]

/-! ## The names for all associations -/

section Entities

variable {policy : Policy} {d : Definition} {e : Entity}

theorem Entity.associations_of_ok (h : Entity.ofDefinition policy d = .ok e) :
    e.associations = Classification.ofResolutions d.storage
      (d.associations.entries.map Resolution.resolved) := by
  obtain ⟨c, hc, he⟩ := bind_eq_ok_iff.mp h
  rw [← Except.ok.inj he]
  exact Classification.eq_of_ok hc

/-- The schema has the fields of an association under its declared name. -/
theorem fieldNames_perm (h : Entity.ofDefinition policy d = .ok e) :
    ((Schema.associationFields e).map Schema.Field.name).Perm
      ((Classification.known d.associations.entries).flatMap fun a => a.accessNames a.name) := by
  have hone : e.associations.one = Classification.targets .one
      (Classification.known d.associations.entries) := by rw [Entity.associations_of_ok h]; rfl
  have hmany : e.associations.many = Classification.targets .many
      (Classification.known d.associations.entries) := by rw [Entity.associations_of_ok h]; rfl
  rw [Schema.associationFields, hone, hmany, Classification.entries_targets,
    Classification.entries_targets]
  generalize Classification.known d.associations.entries = known
  have harity : known.filter (·.arity == .many) = known.filter (!·.arity == .one) :=
    List.filter_congr fun a _ => by cases a.arity <;> rfl
  have hones : ∀ a ∈ known.filter (·.arity == .one), [a.name] = a.accessNames a.name := by
    intro a ha
    rw [Association.accessNames, beq_iff_eq.mp (List.mem_filter.mp ha).2]
  have hmanys : ∀ a ∈ known.filter (·.arity == .many),
      (Schema.manyFields a.name a.target).map Schema.Field.name = a.accessNames a.name := by
    intro a ha
    rw [Association.accessNames, beq_iff_eq.mp (List.mem_filter.mp ha).2]
    rfl
  refine List.Perm.trans (List.Perm.of_eq ?_)
    ((List.filter_append_perm (·.arity == .one) known).flatMap_right fun a => a.accessNames a.name)
  rw [List.map_append, List.flatMap_append, ← harity, ← List.flatMap_congr hones,
    ← List.flatMap_congr hmanys, List.flatMap_map, List.map_flatMap]
  simp only [List.map_map, Function.comp_def, ← List.map_eq_flatMap]
  rfl

/-- The resolvers have the methods of an association under its name with a small first letter. -/
theorem methodNames_perm (h : Entity.ofDefinition policy d = .ok e) :
    ((Resolvers.methods e).map Resolvers.Method.name).Perm
      ((Classification.known d.associations.entries).flatMap fun a => a.accessNames a.nameLc) := by
  have hlisted := Classification.listed_perm_known d.storage d.associations.entries
  rw [← Entity.associations_of_ok h] at hlisted
  refine List.Perm.trans (List.Perm.of_eq ?_) (hlisted.flatMap_right _)
  rw [Resolvers.methods, List.map_append, List.map_flatMap, List.map_flatMap, List.flatMap_append]
  simp only [Association.implicitMethods_names, Association.explicitMethods_names]

/-! ## Agreement -/

theorem Kind.isName_iff_exists {text : String} : IsName text ↔ ∃ kind, ofName? text = some kind := by
  rw [← Option.ne_none_iff_exists', ne_eq, ofName?_eq_none_iff, not_not]

/-- **Fields and methods agree** exactly if every declared association of a known kind has a name
    that begins with no letter to be lowered. Then each field of the schema that leads to
    associated records has one method of that name behind it, and there are no other methods,
    whatever the kinds of the associations and the storage on either side. -/
theorem fields_match_methods_iff (h : Entity.ofDefinition policy d = .ok e) :
    ((Schema.associationFields e).map Schema.Field.name).Perm
        ((Resolvers.methods e).map Resolvers.Method.name) ↔
      ∀ p ∈ d.associations.entries, Kind.IsName p.2.kind → uncapitalize p.1 = p.1 := by
  have hnames : ((Schema.associationFields e).map Schema.Field.name).Perm
      ((Resolvers.methods e).map Resolvers.Method.name) ↔
        ∀ a ∈ Classification.known d.associations.entries, IsLowered a.name := by
    rw [← accessNames_perm_iff]
    constructor
    · intro hperm
      exact ((fieldNames_perm h).symm.trans hperm).trans (methodNames_perm h)
    · intro hperm
      exact ((fieldNames_perm h).trans hperm).trans (methodNames_perm h).symm
  rw [hnames]
  constructor
  · rintro hall ⟨name, s⟩ hentry hname
    obtain ⟨kind, hkind⟩ := Kind.isName_iff_exists.mp hname
    exact hall ⟨name, kind, s⟩ (Resolution.mem_known_iff.mpr ⟨hentry, hkind⟩)
  · intro hall a ha
    obtain ⟨hentry, hkind⟩ := Resolution.mem_known_iff.mp ha
    exact hall (a.name, a.spec) hentry (Kind.isName_iff_exists.mpr ⟨a.kind, hkind⟩)

end Entities

/-- A table with an association to one table and one to many remote records. -/
def bookWith (one many : String) : Definition where
  name := "Book"
  storage := .sql
  attributes := .ofList [("title", "String")]
  associations := .ofList
    [(one, { kind := "sql_belongsTo", target := "Publisher", targetStorage := .sql
             targetKey := some "publisherId" }),
      (many, { kind := "cross_hasMany", target := "Review", targetStorage := .webservice })]
  indices := []

/-- The names on both sides, for the entity of a definition. -/
def bothSides (d : Definition) : Except Failure (List String × List String) :=
  (Entity.ofDefinition .reject d).map fun e =>
    ((Schema.associationFields e).map Schema.Field.name,
      (Resolvers.methods e).map Resolvers.Method.name)

theorem exists_entity_of_bothSides {d : Definition} {fields methods : List String}
    (h : bothSides d = .ok (fields, methods)) :
    ∃ e, Entity.ofDefinition .reject d = .ok e ∧
      (Schema.associationFields e).map Schema.Field.name = fields ∧
      (Resolvers.methods e).map Resolvers.Method.name = methods := by
  obtain ⟨e, he, hboth⟩ := map_eq_ok_iff.mp h
  obtain ⟨hfields, hmethods⟩ := Prod.mk.inj hboth
  exact ⟨e, he, hfields, hmethods⟩

/-- With small letters every field has its method. -/
theorem fields_match_methods_iff_sample :
    ∃ e, Entity.ofDefinition .reject (bookWith "publisher" "reviews") = .ok e ∧
      (Resolvers.methods e).map Resolvers.Method.name =
        ["publisher", "reviewsFilter", "countFilteredReviews"] ∧
      ((Schema.associationFields e).map Schema.Field.name).Perm
        ((Resolvers.methods e).map Resolvers.Method.name) := by
  have hboth : bothSides (bookWith "publisher" "reviews") =
      .ok (["publisher", "reviewsFilter", "countFilteredReviews"],
        ["publisher", "reviewsFilter", "countFilteredReviews"]) := by decide +kernel
  obtain ⟨e, he, -, hmethods⟩ := exists_entity_of_bothSides hboth
  have hlowered : ∀ p ∈ (bookWith "publisher" "reviews").associations.entries,
      uncapitalize p.1 = p.1 := by decide +kernel
  exact ⟨e, he, hmethods, (fields_match_methods_iff he).mpr fun p hp _ => hlowered p hp⟩

/-- The schema has a field `Publisher` here, but the method of the resolvers is `publisher`. -/
theorem field_without_method :
    (bookWith "Publisher" "reviews").nameFault = none ∧
    ∃ e, Entity.ofDefinition .reject (bookWith "Publisher" "reviews") = .ok e ∧
      (Schema.associationFields e).map Schema.Field.name =
        ["Publisher", "reviewsFilter", "countFilteredReviews"] ∧
      (Resolvers.methods e).map Resolvers.Method.name =
        ["publisher", "reviewsFilter", "countFilteredReviews"] :=
  ⟨by decide +kernel, exists_entity_of_bothSides (by decide +kernel)⟩

end Scaffold
