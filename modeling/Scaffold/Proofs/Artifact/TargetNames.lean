import Scaffold.Artifact.Resolvers
import Scaffold.Proofs.Except
import Scaffold.Proofs.Naming.Capitalized

/-!
# Names across entities

  The source text of one entity refers to another by names that it spells from
  the target of an association, and the text of the other declares names that it
  spells from its own. For one and the same name the two ways of spelling agree,
  but for the function that counts records: one side capitalizes a plural, the
  other takes the plural of a capitalized name. So exactly the names for which
  these two differ leave a reference without a declaration.
-/

namespace Scaffold

open Naming

/-- The names by which the source text for one entity refers to another. -/
structure References where
  /-- The type of its records in the schema. -/
  type : String
  /-- The inputs that select and order its records. -/
  search : String
  order : String
  /-- Its model, in the registry of models. -/
  model : String
  /-- Its table, in a migration. -/
  table : String
  /-- The functions that list its records, read one of them and count them. -/
  list : String
  readOne : String
  count : String
  deriving DecidableEq

/-- The names that the source text for an entity declares. -/
def Entity.references (t : Entity) : References where
  type := t.name
  search := s!"search{t.nameCp}Input"
  order := s!"order{t.nameCp}Input"
  model := t.nameLc
  table := t.table
  list := t.namePl
  readOne := s!"readOne{t.nameCp}"
  count := s!"count{t.namePlCp}"

/-- The names that the source text for the owner of an association uses for the other side. -/
def Association.references (a : Association) : References where
  type := a.target
  search := s!"search{a.targetCp}Input"
  order := s!"order{a.targetCp}Input"
  model := a.targetLc
  table := a.targetLcPl
  list := a.targetLcPl
  readOne := s!"readOne{a.targetCp}"
  count := s!"count{a.targetCpPl}"

/-- Whatever the target is called, only the name of the counting function can differ. -/
theorem references_eq_of_target {a : Association} {t : Entity} (h : a.target = t.name) :
    a.references = { t.references with count := a.references.count } := by
  rw [Association.references, Entity.references, Association.targetCp, Association.targetLcPl,
    Association.targetLc, h]
  rfl

theorem count_eq_iff {a : Association} {t : Entity} (h : a.target = t.name) :
    a.references.count = t.references.count ↔ t.name ∉ clashing := by
  have hspell : a.references.count = t.references.count ↔
      "count" ++ capitalize (pluralize t.name) = "count" ++ pluralize (capitalize t.name) := by
    rw [← h]
    simp [Association.references, Entity.references, Association.targetCpPl, Association.targetPl,
      Entity.namePlCp, Entity.nameCp, toString, h]
  rw [hspell, String.append_right_inj, eq_comm, pluralize_capitalize_iff]

/-- **Names resolve** between an association and the entity that it names, exactly if the name is not
    one of those that clash: then all names that the one side uses are those that the other side
    declares. For every name this holds of all but the function that counts records. -/
theorem references_resolve_iff {a : Association} {t : Entity} (h : a.target = t.name) :
    a.references = { t.references with count := a.references.count } ∧
      (a.references = t.references ↔ t.name ∉ clashing) := by
  refine ⟨references_eq_of_target h, ?_⟩
  rw [← count_eq_iff h]
  constructor
  · exact congrArg References.count
  · intro hcount
    rw [references_eq_of_target h, hcount]

/-- An entity with records of another one. -/
def ownerOf (target : String) : Definition where
  name := "Owner"
  storage := .sql
  attributes := .ofList [("name", "String")]
  associations := .ofList
    [("records", { kind := "cross_hasMany", target, targetStorage := .webservice })]
  indices := []

/-- The association of such an entity. -/
def recordsOf (target : String) : Association :=
  ⟨"records", .crossHasMany, { kind := "cross_hasMany", target, targetStorage := .webservice }⟩

/-- A remote entity. -/
def remoteNamed (name : String) : Definition where
  name := name
  storage := .webservice
  attributes := .ofList []
  associations := .ofList []
  indices := []

/-- The names of sales people resolve. -/
theorem references_resolve_iff_sample :
    ∃ o t, Entity.ofDefinition .reject (ownerOf "salesPerson") = .ok o ∧
      Entity.ofDefinition .reject (remoteNamed "salesPerson") = .ok t ∧
      o.associations.explicit.members = [recordsOf "salesPerson"] ∧
      (recordsOf "salesPerson").target = t.name ∧ t.name ∉ clashing ∧
      (recordsOf "salesPerson").references = t.references := by
  have howner : (Entity.ofDefinition .reject (ownerOf "salesPerson")).map
      (·.associations.explicit.members) = .ok [recordsOf "salesPerson"] := by decide +kernel
  have htarget : (Entity.ofDefinition .reject (remoteNamed "salesPerson")).map Entity.name =
      .ok "salesPerson" := by decide +kernel
  obtain ⟨o, ho, hmembers⟩ := map_eq_ok_iff.mp howner
  obtain ⟨t, ht, hname⟩ := map_eq_ok_iff.mp htarget
  have hfree : t.name ∉ clashing := by rw [hname]; decide +kernel
  have hsame : (recordsOf "salesPerson").target = t.name := hname.symm
  exact ⟨o, t, ho, ht, hmembers, hsame, hfree, (references_resolve_iff hsame).2.mpr hfree⟩

/-- The plural of `fe` is `ves`, and so is that of `Fe`. So the one side calls a function `countVes`,
    and the other one has a function `countves`. -/
theorem reference_without_declaration :
    ∃ o t, Entity.ofDefinition .reject (ownerOf "fe") = .ok o ∧
      Entity.ofDefinition .reject (remoteNamed "fe") = .ok t ∧
      o.associations.explicit.members = [recordsOf "fe"] ∧ (recordsOf "fe").target = t.name ∧
      (recordsOf "fe").references ≠ t.references ∧
      (∃ m ∈ Resolvers.methods o,
        .code 0 "return resolvers.countVes(\x7b search: nsearch \x7d, context);" ∈ m.body) ∧
      (Resolvers.operations t).map Resolvers.Operation.name =
        ["ves", "readOneFe", "countves", "vueTableFe", "addFe", "deleteFe", "updateFe",
          "bulkAddFeCsv", "csvTableTemplateFe"] := by
  have howner : (Entity.ofDefinition .reject (ownerOf "fe")).map (fun o =>
      (o.associations.explicit.members, (Resolvers.methods o).any fun m => m.body.contains
        (.code 0 "return resolvers.countVes(\x7b search: nsearch \x7d, context);"))) =
        .ok ([recordsOf "fe"], true) := by decide +kernel
  have htarget : (Entity.ofDefinition .reject (remoteNamed "fe")).map (fun t =>
      (t.name, (Resolvers.operations t).map Resolvers.Operation.name)) =
        .ok ("fe", ["ves", "readOneFe", "countves", "vueTableFe", "addFe", "deleteFe", "updateFe",
          "bulkAddFeCsv", "csvTableTemplateFe"]) := by decide +kernel
  obtain ⟨o, ho, hboth⟩ := map_eq_ok_iff.mp howner
  obtain ⟨hmembers, hany⟩ := Prod.mk.inj hboth
  obtain ⟨m, hm, hline⟩ := List.any_eq_true.mp hany
  obtain ⟨t, ht, hboth⟩ := map_eq_ok_iff.mp htarget
  obtain ⟨hname, hoperations⟩ := Prod.mk.inj hboth
  have hclash : "fe" ∈ clashing := by decide +kernel
  refine ⟨o, t, ho, ht, hmembers, hname.symm, fun heq => ?_, ⟨m, hm, ?_⟩, hoperations⟩
  · refine (count_eq_iff (a := recordsOf "fe") (t := t) hname.symm).mp
      (congrArg References.count heq) ?_
    rw [hname]
    exact hclash
  · exact List.contains_iff_mem.mp hline

/-! ## Calls -/

/-- The functions of an entity that the methods of others may call. -/
def References.functions (r : References) : List String := [r.list, r.readOne, r.count]

/-- The body of the method calls a function of another entity. -/
def Resolvers.Method.Calls (m : Resolvers.Method) (function : String) : Prop :=
  ∃ before rest,
    Source.Line.code 0 (before ++ ("resolvers." ++ function ++ "(" ++ rest)) ∈ m.body

theorem Resolvers.Method.Calls.of_mem {m : Resolvers.Method} {function line : String}
    (before rest : String) (hmem : .code 0 line ∈ m.body)
    (hline : line = before ++ ("resolvers." ++ function ++ "(" ++ rest)) : m.Calls function :=
  ⟨before, rest, hline ▸ hmem⟩

/-- Every method of an explicit association calls a function of the other side. -/
theorem explicitMethods_call {owner : Entity} {a : Association} {m : Resolvers.Method}
    (hm : m ∈ Resolvers.explicitMethods owner a) :
    ∃ function ∈ a.references.functions, m.Calls function := by
  have hlist : a.references.list ∈ a.references.functions := List.mem_cons_self
  have hreadOne : a.references.readOne ∈ a.references.functions :=
    List.mem_cons_of_mem _ List.mem_cons_self
  have hcount : a.references.count ∈ a.references.functions :=
    List.mem_cons_of_mem _ (List.mem_cons_of_mem _ List.mem_cons_self)
  rw [Resolvers.explicitMethods] at hm
  cases hshape : a.shape with
  | belongsTo =>
      rw [hshape] at hm
      obtain rfl := List.mem_singleton.mp hm
      refine ⟨_, hreadOne, .of_mem "return "
        s!"\x7b id: this.{Resolvers.keyOf owner a} \x7d, context);"
        (List.mem_append_right _ List.mem_cons_self) ?_⟩
      simp [← String.toList_inj, toString, Association.references]
  | hasOne =>
      rw [hshape] at hm
      obtain rfl := List.mem_singleton.mp hm
      refine ⟨_, hlist, .of_mem "let found = await "
        "\x7b search: nsearch, pagination: \x7b limit: 1 \x7d \x7d, context);"
        (List.mem_append_right _ List.mem_cons_self) ?_⟩
      simp [← String.toList_inj, toString, Association.references]
  | hasMany | belongsToMany =>
      rw [hshape] at hm
      rcases List.mem_cons.mp hm with rfl | hm
      · refine ⟨_, hlist, .of_mem "return "
          "\x7b search: nsearch, order: order, pagination: pagination \x7d, context);"
          (List.mem_append_right _ List.mem_cons_self) ?_⟩
        simp [← String.toList_inj, toString, Association.references]
      · obtain rfl := List.mem_singleton.mp hm
        refine ⟨_, hcount, .of_mem "return " "\x7b search: nsearch \x7d, context);"
          (List.mem_append_right _ List.mem_cons_self) ?_⟩
        simp [← String.toList_inj, toString, Association.references]

theorem functions_subset_operations (t : Entity) :
    t.references.functions ⊆ (Resolvers.operations t).map Resolvers.Operation.name := by
  intro function hmem
  simp only [References.functions, List.mem_cons, List.not_mem_nil, or_false] at hmem
  rcases hmem with rfl | rfl | rfl
  · exact List.mem_cons_self
  · exact List.mem_cons_of_mem _ List.mem_cons_self
  · exact List.mem_cons_of_mem _ (List.mem_cons_of_mem _ List.mem_cons_self)

/-- If the name of the other side is not one that clashes, every method of an explicit association
    calls a function that the other side has. -/
theorem explicitMethods_call_operations {owner t : Entity} {a : Association}
    {m : Resolvers.Method} (h : a.target = t.name) (hname : t.name ∉ clashing)
    (hm : m ∈ Resolvers.explicitMethods owner a) :
    ∃ function ∈ (Resolvers.operations t).map Resolvers.Operation.name, m.Calls function := by
  obtain ⟨function, hmem, hcall⟩ := explicitMethods_call hm
  rw [references_eq_of_target h, (count_eq_iff h).mpr hname] at hmem
  exact ⟨function, functions_subset_operations t hmem, hcall⟩

end Scaffold
