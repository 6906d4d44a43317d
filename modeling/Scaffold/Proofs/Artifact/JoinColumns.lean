import Scaffold.Proofs.Artifact.ForeignKeys

/-!
# Columns of join tables

  A join table has the columns that every table has, and one for each of the two
  sides that it joins. The names of these two are keys, and each is given or made
  of the name of its side. A key that is made ends in `Id`, so it is never the
  name of a common column; and if both are made, they are apart as long as the
  sides are. A key that is given is taken as it is, so the columns are distinct
  exactly if what is given sees to it.
-/

namespace Scaffold

open Source

/-! ## Keys -/

/-- The names of the columns that every table has. -/
def Migration.commonNames : List String := commonColumns.map TableColumn.name

namespace Association

variable (a : Association)

/-- The key of the other side in a join table: the one that is given, or else the one that is made
    of the target's name. -/
def otherKey : String := a.spec.targetKey.getD s!"{a.targetLc}Id"

/-- The keys of a join table that are given. -/
def givenKeys : List String := a.spec.sourceKey.toList ++ a.spec.targetKey.toList

end Association

/-- No common column has a name that ends like a key that is made. -/
theorem Migration.made_notMem_commonNames (front : String) : s!"{front}Id" ∉ commonNames := by
  intro hmem
  have hall : (commonNames.all fun name => !"Id".toList.isSuffixOf name.toList) = true := by decide
  have hnot := List.all_eq_true.mp hall _ hmem
  have hsuffix : "Id".toList <:+ (s!"{front}Id").toList := by
    rw [String.toList_append]
    exact List.suffix_append _ _
  rw [List.isSuffixOf_iff_suffix.mpr hsuffix] at hnot
  exact nomatch hnot

/-- So only a key that is given can have the name of a common column. -/
theorem Migration.getD_mem_commonNames_iff (given : Option String) (front : String) :
    given.getD s!"{front}Id" ∈ commonNames ↔ ∃ key ∈ given, key ∈ commonNames := by
  cases given with
  | none =>
      refine iff_of_false (made_notMem_commonNames front) ?_
      rintro ⟨key, hkey, -⟩
      exact nomatch hkey
  | some key =>
      constructor
      · exact fun hmem => ⟨key, rfl, hmem⟩
      · rintro ⟨key', hkey', hmem⟩
        cases hkey'
        exact hmem

namespace Entity

variable {e : Entity} {a : Association}

/-- Two keys that are made are those of two sides. -/
theorem keys_ne_of_made (hkeys : a.givenKeys = []) (hsides : a.targetLc ≠ e.nameLc) :
    e.keyOr a.spec.sourceKey ≠ a.otherKey := by
  obtain ⟨hsource, htarget⟩ := List.append_eq_nil_iff.mp hkeys
  rw [keyOr, Association.otherKey, Option.toList_eq_nil_iff.mp hsource,
    Option.toList_eq_nil_iff.mp htarget]
  exact fun heq => hsides ((String.append_left_inj "Id").mp heq).symm

/-! ## Columns -/

theorem nodup_joinNames_iff :
    (Migration.commonNames ++ [e.keyOr a.spec.sourceKey, a.otherKey]).Nodup ↔
      (∀ key ∈ a.givenKeys, key ∉ Migration.commonNames) ∧
        e.keyOr a.spec.sourceKey ≠ a.otherKey := by
  have hcommon : Migration.commonNames.Nodup := by decide
  have hgiven : (∀ key ∈ a.givenKeys, key ∉ Migration.commonNames) ↔
      e.keyOr a.spec.sourceKey ∉ Migration.commonNames ∧ a.otherKey ∉ Migration.commonNames := by
    rw [keyOr, Association.otherKey, Migration.getD_mem_commonNames_iff,
      Migration.getD_mem_commonNames_iff, Association.givenKeys]
    simp [or_imp, forall_and]
  rw [hgiven, List.nodup_append', List.nodup_cons, List.mem_singleton, List.disjoint_comm]
  simp [hcommon, List.disjoint_cons_left, and_comm]

/-- **The columns of a join table** are those of every table, the source key and the target key.
    They are distinct exactly if no key that is given is the name of a common column and the two
    keys differ. If none is given, it is enough that the target is not called like the owner. -/
theorem join_columns_distinct_iff {policy : Policy} {d : Definition}
    (h : ofDefinition policy d = .ok e) (ha : a ∈ e.associations.implicit.members)
    (hs : a.shape = .belongsToMany) :
    ∃ (table text : String) (columns : List Migration.TableColumn),
      a.spec.keysIn = some table ∧
      Template.throughMigration.render (.association e a) = .ok text ∧
      Migration.Does
        (block s!"return queryInterface.createTable('{table}', "
          (columns.flatMap Migration.TableColumn.source) ");")
        s!"return queryInterface.dropTable('{table}');" text ∧
      columns.map Migration.TableColumn.name =
        ["id", "createdAt", "updatedAt", e.keyOr a.spec.sourceKey, a.otherKey] ∧
      ((columns.map Migration.TableColumn.name).Nodup ↔
        (∀ key ∈ a.givenKeys, key ∉ ["id", "createdAt", "updatedAt"]) ∧
          e.keyOr a.spec.sourceKey ≠ a.otherKey) ∧
      (a.givenKeys = [] → a.targetLc ≠ e.nameLc →
        (columns.map Migration.TableColumn.name).Nodup) := by
  refine ⟨a.keysIn, _, _, (given_of_ok h List.mem_cons_self ha).2 hs, rfl, does_joinTable e a, rfl,
    nodup_joinNames_iff, fun hkeys hsides => nodup_joinNames_iff.mpr ⟨fun key hkey => ?_, ?_⟩⟩
  · rw [hkeys] at hkey
    exact nomatch hkey
  · exact keys_ne_of_made hkeys hsides

/-- A person with friends, who are persons, too. -/
def circle (sourceKey targetKey : Option String) : Definition where
  name := "Person"
  storage := .sql
  attributes := .ofList [("name", "String")]
  associations := .ofList
    [("friends", { kind := "sql_belongsToMany", target := "Person", targetStorage := .sql
                   sourceKey, targetKey, keysIn := some "friendships" })]
  indices := []

/-- With a key for the friend, the key of the person can be left to be made. -/
theorem join_columns_distinct_iff_sample :
    ∃ (e : Entity) (a : Association) (columns : List Migration.TableColumn),
      ofDefinition .reject (circle none (some "friendId")) = .ok e ∧
      e.associations.implicit.members = [a] ∧ a.shape = .belongsToMany ∧
      columns.map Migration.TableColumn.name =
        ["id", "createdAt", "updatedAt", "personId", "friendId"] ∧
      (columns.map Migration.TableColumn.name).Nodup := by
  obtain ⟨e, he⟩ : ∃ e, ofDefinition .reject (circle none (some "friendId")) = .ok e := ⟨_, rfl⟩
  have hdistinct := fun a => join_columns_distinct_iff (a := a) he
  cases he
  obtain ⟨-, -, columns, -, -, -, hnames, hnodup, -⟩ := hdistinct _ List.mem_cons_self rfl
  exact ⟨_, _, columns, rfl, rfl, rfl, hnames, hnodup.mpr (by decide +kernel)⟩

/-- Nothing compares the keys: both sides of the friendship can be given one and the same. -/
theorem not_always_distinct_columns :
    (circle (some "personId") (some "personId")).nameFault = none ∧
    ∃ (e : Entity) (a : Association) (columns : List Migration.TableColumn),
      ofDefinition .reject (circle (some "personId") (some "personId")) = .ok e ∧
      e.associations.implicit.members = [a] ∧ a.shape = .belongsToMany ∧
      Migration.joinTable e a = .createTable "friendships" columns [] ∧
      columns.map Migration.TableColumn.name =
        ["id", "createdAt", "updatedAt", "personId", "personId"] ∧
      ¬ (columns.map Migration.TableColumn.name).Nodup :=
  ⟨by decide +kernel, _, _, _, rfl, rfl, rfl, rfl, by decide +kernel, by decide +kernel⟩

end Entity

end Scaffold
