import Mathlib.Data.List.Forall2

/-!
# Reading lists of results

  A list is worked off from left to right until the first failure. If all goes
  well, the results stand in the order of the list, one for each member; if
  not, the failure is that of the first member that has none.
-/

namespace Scaffold

variable {ε α β : Type}

theorem bind_eq_ok_iff {x : Except ε α} {f : α → Except ε β} {b : β} :
    x >>= f = .ok b ↔ ∃ a, x = .ok a ∧ f a = .ok b := by
  cases x with
  | error e => exact ⟨nofun, nofun⟩
  | ok a => exact ⟨fun h => ⟨a, rfl, h⟩, fun ⟨_, ha, h⟩ => by cases ha; exact h⟩

theorem mapError_eq_ok_iff {ε' : Type} {x : Except ε α} {f : ε → ε'} {a : α} :
    x.mapError f = .ok a ↔ x = .ok a := by
  cases x with
  | error e => exact ⟨nofun, nofun⟩
  | ok b =>
      constructor
      · intro h
        have hba : b = a := Except.ok.inj h
        rw [hba]
      · intro h
        rw [Except.ok.inj h]
        rfl

theorem map_eq_ok_iff {x : Except ε α} {f : α → β} {b : β} :
    x.map f = .ok b ↔ ∃ a, x = .ok a ∧ f a = b := by
  cases x with
  | error e => exact ⟨nofun, nofun⟩
  | ok a =>
      constructor
      · intro h
        exact ⟨a, rfl, Except.ok.inj h⟩
      · rintro ⟨a', ha, rfl⟩
        rw [ha]
        rfl

/-- A list gives results exactly if its members do, in the same order. -/
theorem mapM_eq_ok_iff {f : α → Except ε β} {as : List α} {bs : List β} :
    as.mapM f = .ok bs ↔ List.Forall₂ (fun a b => f a = .ok b) as bs := by
  induction as generalizing bs with
  | nil =>
      rw [List.forall₂_nil_left_iff]
      constructor
      · intro h
        cases h
        rfl
      · rintro rfl
        rfl
  | cons a as ih =>
      rw [List.mapM_cons, bind_eq_ok_iff, List.forall₂_cons_left_iff]
      constructor
      · rintro ⟨b, hb, h⟩
        obtain ⟨bs', hbs, h⟩ := bind_eq_ok_iff.mp h
        cases h
        exact ⟨b, bs', hb, ih.mp hbs, rfl⟩
      · rintro ⟨b, bs', hb, hbs, rfl⟩
        exact ⟨b, hb, bind_eq_ok_iff.mpr ⟨bs', ih.mpr hbs, rfl⟩⟩

/-- Members that all give a result make the list give one. -/
theorem exists_mapM_eq_ok {f : α → Except ε β} {as : List α} (h : ∀ a ∈ as, ∃ b, f a = .ok b) :
    ∃ bs, as.mapM f = .ok bs := by
  induction as with
  | nil => exact ⟨[], rfl⟩
  | cons a as ih =>
      obtain ⟨b, hb⟩ := h a List.mem_cons_self
      obtain ⟨bs, hbs⟩ := ih fun a' ha' => h a' (List.mem_cons_of_mem a ha')
      exact ⟨b :: bs, mapM_eq_ok_iff.mpr (.cons hb (mapM_eq_ok_iff.mp hbs))⟩

/-- A list that gives results has members that all give one. -/
theorem forall_of_mapM_eq_ok {f : α → Except ε β} {as : List α} {bs : List β}
    (h : as.mapM f = .ok bs) : ∀ a ∈ as, ∃ b, f a = .ok b := by
  have hboth : List.Forall₂ (fun a b => (∃ b, f a = .ok b) ∧ f a = .ok b) as bs :=
    (mapM_eq_ok_iff.mp h).imp fun a b hab => ⟨⟨b, hab⟩, hab⟩
  exact ((List.forall₂_and_left as bs).mp hboth).1

theorem mapM_cons_eq_error_iff {f : α → Except ε β} {a : α} {as : List α} {e : ε} :
    (a :: as).mapM f = .error e ↔
      f a = .error e ∨ (∃ b, f a = .ok b) ∧ as.mapM f = .error e := by
  rw [List.mapM_cons]
  cases f a with
  | error e' =>
      show Except.error e' = Except.error e ↔ _
      simp
  | ok b =>
      show (as.mapM f).bind (fun bs => .ok (b :: bs)) = .error e ↔ _
      cases as.mapM f <;> simp [Except.bind]

/-- A list fails exactly if a member does, and then as the first of them. -/
theorem mapM_eq_error_iff {f : α → Except ε β} {as : List α} {e : ε} :
    as.mapM f = .error e ↔
      ∃ before a after, as = before ++ a :: after ∧ (∀ a' ∈ before, ∃ b, f a' = .ok b) ∧
        f a = .error e := by
  induction as with
  | nil =>
      constructor
      · exact nofun
      · rintro ⟨before, a, after, has, -, -⟩
        exact nomatch List.append_eq_nil_iff.mp has.symm
  | cons a as ih =>
      rw [mapM_cons_eq_error_iff, ih]
      constructor
      · rintro (ha | ⟨ha, before, a', after, rfl, hbefore, ha'⟩)
        · exact ⟨[], a, as, rfl, nofun, ha⟩
        · exact ⟨a :: before, a', after, rfl, List.forall_mem_cons.mpr ⟨ha, hbefore⟩, ha'⟩
      · rintro ⟨before, a', after, has, hbefore, ha'⟩
        cases before with
        | nil =>
            obtain ⟨rfl, -⟩ := List.cons.inj has
            exact Or.inl ha'
        | cons c before =>
            obtain ⟨rfl, hrest⟩ := List.cons.inj has
            obtain ⟨ha, hbefore⟩ := List.forall_mem_cons.mp hbefore
            exact Or.inr ⟨ha, before, a', after, hrest, hbefore, ha'⟩

/-- What is the same for members that belong together is the same for their lists. -/
theorem map_eq_map_of_forall₂ {γ : Type} {r : α → β → Prop} {f : α → γ} {g : β → γ}
    (hr : ∀ a b, r a b → f a = g b) {as : List α} {bs : List β} (h : List.Forall₂ r as bs) :
    as.map f = bs.map g := by
  induction h with
  | nil => rfl
  | cons hab _ ih => rw [List.map_cons, List.map_cons, hr _ _ hab, ih]

/-- If a member can only give one result, the list can only give the list of results. -/
theorem eq_map_of_mapM_eq_ok {f : α → Except ε β} {g : α → β} {as : List α} {bs : List β}
    (hg : ∀ a b, f a = .ok b → b = g a) (h : as.mapM f = .ok bs) : bs = as.map g := by
  rw [map_eq_map_of_forall₂ (fun a b hab => (hg a b hab).symm) (mapM_eq_ok_iff.mp h)]
  exact (List.map_id bs).symm

end Scaffold
