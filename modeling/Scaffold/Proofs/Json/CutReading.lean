import Scaffold.Proofs.Except
import Scaffold.Proofs.Json.CutOff
import Scaffold.Proofs.Json.Records

/-!
# Reading what is cut off

  A reader that goes from left to right finds in a cut document what it finds
  in the whole one, until it comes to the cut. If it accepts the whole one it
  has no fault of the content to report by then; and at the cut it can only
  report that this is no JSON. Defaults and lacking fields do not come into it,
  because they are asked for at a closing bracket, and a cut document has none.
-/

namespace Scaffold.Json

variable {Cause α β : Type}

/-! ## Results without a fault of the content -/

/-- Nothing of the content is at fault. -/
def Faultless (x : Except (ReadError Cause) α) : Prop := ∀ cause, x ≠ .error (.content cause)

theorem Faultless.ok (a : α) : Faultless (.ok a : Except (ReadError Cause) α) := fun _ => nofun

theorem Faultless.notJson : Faultless (.error .notJson : Except (ReadError Cause) α) := fun _ => nofun

theorem Faultless.of_eq_ok {x : Except (ReadError Cause) α} {a : α} (h : x = .ok a) :
    Faultless x := by
  rw [h]
  exact .ok a

theorem Faultless.bind {x : Except (ReadError Cause) α} {f : α → Except (ReadError Cause) β}
    (hx : Faultless x) (hf : ∀ a, x = .ok a → Faultless (f a)) : Faultless (x >>= f) := by
  cases x with
  | error e =>
      cases e with
      | notJson => exact .notJson
      | content cause => exact absurd rfl (hx cause)
  | ok a => exact hf a rfl

theorem Faultless.map {x : Except (ReadError Cause) α} (hx : Faultless x) (f : α → β) :
    Faultless (x.map f) := by
  cases x with
  | error e =>
      cases e with
      | notJson => exact .notJson
      | content cause => exact absurd rfl (hx cause)
  | ok a => exact .ok (f a)

/-- What is neither a result nor a fault of the content is no JSON. -/
theorem Faultless.eq_notJson {x : Except (ReadError Cause) α} (hx : Faultless x)
    (h : ∀ a, x ≠ .ok a) : x = .error .notJson := by
  cases x with
  | error e =>
      cases e with
      | notJson => rfl
      | content cause => exact absurd rfl (hx cause)
  | ok a => exact absurd rfl (h a)

theorem Faultless.mapM {f : α → Except (ReadError Cause) β} {as : List α}
    (h : ∀ a ∈ as, Faultless (f a)) : Faultless (as.mapM f) := by
  induction as with
  | nil => exact .ok []
  | cons a as ih =>
      rw [List.mapM_cons]
      refine (h a List.mem_cons_self).bind fun b _ => ?_
      exact (ih fun a' ha' => h a' (List.mem_cons_of_mem a ha')).bind fun bs _ => .ok (b :: bs)

/-! ## Readers -/

/-- The reader finds no fault of the content in what is left of a tree that it accepts. -/
structure NoticesCuts (read : Tree → Except (ReadError Cause) α) : Prop where
  broken : Faultless (read .broken)
  cut : ∀ {u v : Tree} {a : α}, u.CutOf v → read v = .ok a → Faultless (read u)

variable {read : Tree → Except (ReadError Cause) α} {u : Tree} {closed : Bool}

/-- What is left of the items of an array is read without a fault of the content. -/
theorem NoticesCuts.items (hread : NoticesCuts read) {items : List Tree}
    (h : u.CutOf (.array items closed)) {as : List α} (hitems : items.mapM read = .ok as) :
    u = .broken ∨ ∃ items', u = .array items' false ∧ Faultless (items'.mapM read) := by
  have hall := forall_of_mapM_eq_ok hitems
  cases h with
  | broken => exact Or.inl rfl
  | @array items more =>
      refine Or.inr ⟨_, rfl, .mapM fun t ht => ?_⟩
      obtain ⟨a, ha⟩ := hall t (List.mem_append_left more ht)
      exact .of_eq_ok ha
  | @noItem items more =>
      refine Or.inr ⟨_, rfl, .mapM fun t ht => ?_⟩
      rcases List.mem_append.mp ht with ht | ht
      · obtain ⟨a, ha⟩ := hall t (List.mem_append_left more ht)
        exact .of_eq_ok ha
      · rw [List.mem_singleton.mp ht]
        exact hread.broken
  | @item items more u v _ hcut =>
      refine Or.inr ⟨_, rfl, .mapM fun t ht => ?_⟩
      rcases List.mem_append.mp ht with ht | ht
      · obtain ⟨a, ha⟩ := hall t (List.mem_append_left _ ht)
        exact .of_eq_ok ha
      · obtain ⟨a, ha⟩ := hall v (List.mem_append_right items List.mem_cons_self)
        rw [List.mem_singleton.mp ht]
        exact hread.cut hcut ha

/-- The members of an object are taken in one after the other, and what is left of a member is
    taken in without a fault of the content. -/
theorem Tree.CutOf.members {f : β → List Piece × Tree → Except (ReadError Cause) β}
    (hf : ∀ {d d' key u v}, u.CutOf v → f d (key, v) = .ok d' → Faultless (f d (key, u)))
    {members : List (List Piece × Tree)} (h : u.CutOf (.object members closed)) {d d' : β}
    (hmembers : members.foldlM f d = .ok d') :
    u = .broken ∨ ∃ members', u = .object members' false ∧ Faultless (members'.foldlM f d) := by
  cases h with
  | broken => exact Or.inl rfl
  | @object members more =>
      rw [List.foldlM_append] at hmembers
      obtain ⟨d₁, hd₁, -⟩ := bind_eq_ok_iff.mp hmembers
      exact Or.inr ⟨_, rfl, .of_eq_ok hd₁⟩
  | @member members more key u v _ hcut =>
      rw [List.foldlM_append] at hmembers
      obtain ⟨d₁, hd₁, hrest⟩ := bind_eq_ok_iff.mp hmembers
      rw [List.foldlM_cons] at hrest
      obtain ⟨d₂, hd₂, -⟩ := bind_eq_ok_iff.mp hrest
      refine Or.inr ⟨_, rfl, ?_⟩
      rw [List.foldlM_append, hd₁]
      exact (hf hcut hd₂).bind fun d _ => .ok d

/-! ## Records -/

namespace Record

variable {R : Type} {r : Record Cause R}

theorem positional_append [RecordCause Cause] (fs : List r.Field) (d : r.Draft)
    (items more : List Tree) : r.positional fs d (items ++ more) =
      r.positional fs d items >>= fun d' => r.positional (fs.drop items.length) d' more := by
  induction items generalizing fs d with
  | nil => cases fs <;> rfl
  | cons t items ih =>
      cases fs with
      | nil => rfl
      | cons f fs =>
          rw [List.cons_append, positional, positional, bind_assoc]
          congr 1
          funext v
          exact ih fs (r.set d f v)

variable [RecordCause Cause]

/-- What is left of the items of a record is read without a fault of the content. -/
theorem positional_of_cutOf (hread : ∀ f, NoticesCuts (r.read f)) {items : List Tree}
    (h : u.CutOf (.array items closed)) {fs : List r.Field} {d d' : r.Draft}
    (hitems : r.positional fs d items = .ok d') :
    u = .broken ∨ ∃ items', u = .array items' false ∧ Faultless (r.positional fs d items') := by
  cases h with
  | broken => exact Or.inl rfl
  | @array items more =>
      rw [positional_append] at hitems
      obtain ⟨d₁, hd₁, -⟩ := bind_eq_ok_iff.mp hitems
      exact Or.inr ⟨_, rfl, .of_eq_ok hd₁⟩
  | @noItem items more =>
      rw [positional_append] at hitems
      obtain ⟨d₁, hd₁, -⟩ := bind_eq_ok_iff.mp hitems
      refine Or.inr ⟨_, rfl, ?_⟩
      rw [positional_append]
      refine (Faultless.of_eq_ok hd₁).bind fun d _ => ?_
      cases fs.drop items.length with
      | nil => exact .notJson
      | cons f fs => exact (hread f).broken.bind fun v _ => .of_eq_ok (by rw [positional])
  | @item items more u v _ hcut =>
      rw [positional_append] at hitems
      obtain ⟨d₁, hd₁, hrest⟩ := bind_eq_ok_iff.mp hitems
      refine Or.inr ⟨_, rfl, ?_⟩
      rw [positional_append]
      refine (Faultless.of_eq_ok hd₁).bind fun d _ => ?_
      cases hfs : fs.drop items.length with
      | nil => exact .notJson
      | cons f fs =>
          rw [hfs] at hrest
          obtain ⟨w, hw, -⟩ := bind_eq_ok_iff.mp hrest
          exact ((hread f).cut hcut hw).bind fun v _ => .of_eq_ok (by rw [positional])

/-- What is left of a member is taken in without a fault of the content. -/
theorem member_of_cutOf (hread : ∀ f, NoticesCuts (r.read f)) {d d' : r.Draft}
    {key : List Piece} {v : Tree} (hcut : u.CutOf v) (h : r.member d (key, v) = .ok d') :
    Faultless (r.member d (key, u)) := by
  unfold member at h ⊢
  split
  · exact .notJson
  · rename_i cs hkey
    rw [hkey] at h
    dsimp only at h
    split
    · split
      · exact .ok d
      · exact .notJson
    · rename_i f hf
      rw [hf] at h
      dsimp only at h
      split
      · rename_i hset
        rw [if_pos hset] at h
        exact nomatch h
      · rename_i hset
        rw [if_neg hset] at h
        obtain ⟨w, hw, -⟩ := map_eq_ok_iff.mp h
        exact ((hread f).cut hcut hw).map _

/-- No record is read from what is left of a tree. -/
theorem ofTree_ne_ok {otherwise : Tree → ReadError Cause} {v : Tree} (h : u.CutOf v) (x : R) :
    r.ofTree otherwise u ≠ .ok x := by
  cases h with
  | broken | number | unfinishedNumber => exact nofun
  | array | noItem | item | object | member =>
      intro hok
      obtain ⟨_, -, hclosed⟩ := bind_eq_ok_iff.mp hok
      exact nomatch hclosed

theorem faultless_ofTree_broken {otherwise : Tree → ReadError Cause}
    (hbroken : otherwise .broken = .notJson) : Faultless (r.ofTree otherwise .broken) := by
  rw [ofTree, hbroken]
  · exact .notJson
  all_goals
    intro _ _ h
    cases h

theorem noticesCuts_ofTree (hread : ∀ f, NoticesCuts (r.read f))
    {otherwise : Tree → ReadError Cause} (hbroken : otherwise .broken = .notJson) :
    NoticesCuts (r.ofTree otherwise) where
  broken := faultless_ofTree_broken hbroken
  cut hcut hv := by
    unfold ofTree at hv
    split at hv
    · obtain ⟨d, hd, -⟩ := bind_eq_ok_iff.mp hv
      rcases hcut.members (fun hcut h => member_of_cutOf hread hcut h) hd with
        rfl | ⟨members, rfl, hmembers⟩
      · exact faultless_ofTree_broken hbroken
      · exact hmembers.bind fun _ _ => .notJson
    · obtain ⟨d, hd, -⟩ := bind_eq_ok_iff.mp hv
      rcases positional_of_cutOf hread hcut hd with rfl | ⟨items, rfl, hitems⟩
      · exact faultless_ofTree_broken hbroken
      · exact hitems.bind fun _ _ => .notJson
    · exact nomatch hv

end Record

end Scaffold.Json
