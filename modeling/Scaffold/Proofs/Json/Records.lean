import Scaffold.Json.Record
import Scaffold.Proofs.Json.Scan

/-!
# Reading objects as records

  An object that lists some fields of a record, each once and in any order,
  among members of other names, fills in just these fields. If every field that
  is not listed has a fallback, the object is read as the record of the listed
  values and the fallbacks.
-/

namespace Scaffold.Json.Record

variable {Cause R : Type} {r : Record Cause R}

/-! ## Drafts -/

@[simp] theorem set_self (d : r.Draft) (f : r.Field) (v : r.Value f) : r.set d f v f = some v := by
  unfold set
  cases r.decEq f f with
  | isTrue h => rfl
  | isFalse h => exact absurd rfl h

theorem set_of_ne (d : r.Draft) {f g : r.Field} (v : r.Value f) (h : f ≠ g) :
    r.set d f v g = d g := by
  unfold set
  cases r.decEq f g with
  | isTrue hfg => exact absurd hfg h
  | isFalse hfg => rfl

/-- What has been put into a draft in front of other fields stays when these are put into it. -/
theorem put_behind {v : (f : r.Field) → r.Value f} {d d' : r.Draft} {f : r.Field}
    {fs : List r.Field} (hnot : f ∉ fs) (hin : ∀ g ∈ fs, d' g = some (v g))
    (hout : ∀ g ∉ fs, d' g = r.set d f (v f) g) :
    (∀ g ∈ f :: fs, d' g = some (v g)) ∧ ∀ g ∉ f :: fs, d' g = d g := by
  constructor
  · intro g hg
    rcases List.mem_cons.mp hg with rfl | hg
    · rw [hout g hnot, set_self]
    · exact hin g hg
  · intro g hg
    obtain ⟨hgf, hg⟩ := not_or.mp fun h => hg (List.mem_cons.mpr h)
    rw [hout g hg, set_of_ne d (v f) (Ne.symm hgf)]

/-- A draft that lacks nothing is put together from its values and the fallbacks. -/
theorem complete_eq {d : r.Draft} {v : (f : r.Field) → r.Value f}
    (h : ∀ f, (d f).or (r.fallback f) = some (v f)) (lack : r.Field → Cause) :
    r.complete d lack = r.assemble fun f => .ok (v f) := by
  unfold complete
  congr 1
  funext f
  rw [h f]

/-- A field that is found by its name is one of the fields. -/
theorem mem_fields (hname : ∀ f, r.field? (r.name f) = some f) (f : r.Field) : f ∈ r.fields :=
  List.mem_of_find?_eq_some (hname f)

/-! ## Members -/

/-- The members list these fields with their trees, among members of other names. -/
inductive Lists (r : Record Cause R) (trees : r.Field → Tree) :
    List r.Field → List (List Piece × Tree) → Prop where
  | nil : Lists r trees [] []
  | field {f : r.Field} {fs : List r.Field} {key : List Piece} {ms : List (List Piece × Tree)}
      (hkey : Piece.decode key = some (r.name f).toList) (rest : Lists r trees fs ms) :
      Lists r trees (f :: fs) ((key, trees f) :: ms)
  | other {fs : List r.Field} {key : List Piece} {cs : List Char} {t : Tree}
      {ms : List (List Piece × Tree)} (hkey : Piece.decode key = some cs)
      (hf : r.field? (String.ofList cs) = none) (ht : t.intact = true)
      (rest : Lists r trees fs ms) : Lists r trees fs ((key, t) :: ms)

/-- Members for these fields and no others. -/
theorem Lists.map (trees : r.Field → Tree) (fs : List r.Field) :
    r.Lists trees fs (fs.map fun f => (Piece.ofText (r.name f), trees f)) := by
  induction fs with
  | nil => exact .nil
  | cons f fs ih => exact .field (Piece.decode_ofText (r.name f)) ih

variable [RecordCause Cause]

/-- A member that gives a field. -/
theorem member_field {d : r.Draft} {f : r.Field} {v : r.Value f} {key : List Piece} {t : Tree}
    (hkey : Piece.decode key = some (r.name f).toList) (hf : r.field? (r.name f) = some f)
    (hd : d f = none) (hread : r.read f t = .ok v) :
    r.member d (key, t) = .ok (r.set d f v) := by
  simp only [member, hkey, String.ofList_toList, hf, hd, hread, Except.map]
  rfl

/-- A member of another name. -/
theorem member_other (d : r.Draft) {key : List Piece} {cs : List Char} {t : Tree}
    (hkey : Piece.decode key = some cs) (hf : r.field? (String.ofList cs) = none)
    (ht : t.intact = true) : r.member d (key, t) = .ok d := by
  simp only [member, hkey, hf, ht, if_true]

variable {trees : r.Field → Tree} {fs : List r.Field} {ms : List (List Piece × Tree)}
  {v : (f : r.Field) → r.Value f}

/-- Members that list new fields put their values into the draft and leave the rest of it. -/
theorem Lists.foldlM_member (h : r.Lists trees fs ms) (hname : ∀ f, r.field? (r.name f) = some f)
    (hfs : fs.Nodup) (hread : ∀ f ∈ fs, r.read f (trees f) = .ok (v f)) (d : r.Draft)
    (hd : ∀ f ∈ fs, d f = none) :
    ∃ d', ms.foldlM r.member d = .ok d' ∧ (∀ f ∈ fs, d' f = some (v f)) ∧
      ∀ f ∉ fs, d' f = d f := by
  induction h generalizing d with
  | nil => exact ⟨d, rfl, nofun, fun _ _ => rfl⟩
  | @field f fs key ms hkey rest ih =>
      obtain ⟨hnot, hfs⟩ := List.nodup_cons.mp hfs
      have hmem : f ∈ f :: fs := List.mem_cons_self
      have hstep := member_field hkey (hname f) (hd f hmem) (hread f hmem)
      -- `f` does not come again, so the later members neither meet nor change it
      have hother : ∀ g ∈ fs, f ≠ g := by
        rintro g hg rfl
        exact hnot hg
      obtain ⟨d', hfold, hin, hout⟩ := ih hfs (fun g hg => hread g (List.mem_cons_of_mem f hg))
        (r.set d f (v f)) fun g hg => by
          rw [set_of_ne d (v f) (hother g hg)]
          exact hd g (List.mem_cons_of_mem f hg)
      refine ⟨d', ?_, put_behind hnot hin hout⟩
      rw [List.foldlM_cons, hstep]
      exact hfold
  | other hkey hf ht rest ih =>
      obtain ⟨d', hfold, hrest⟩ := ih hfs hread d hd
      refine ⟨d', ?_, hrest⟩
      rw [List.foldlM_cons, member_other d hkey hf ht]
      exact hfold

/-- An object is read as the record of the values it lists and the fallbacks of the others. -/
theorem Lists.ofTree_object (h : r.Lists trees fs ms) (hname : ∀ f, r.field? (r.name f) = some f)
    (hfs : fs.Nodup) (hread : ∀ f ∈ fs, r.read f (trees f) = .ok (v f))
    (hrest : ∀ f ∉ fs, r.fallback f = some (v f)) (otherwise : Tree → ReadError Cause) :
    r.ofTree otherwise (.object ms true) = r.assemble fun f => .ok (v f) := by
  obtain ⟨d, hfold, hin, hout⟩ := h.foldlM_member hname hfs hread r.noField fun _ _ => rfl
  rw [ofTree, hfold]
  refine complete_eq (fun f => ?_) _
  by_cases hf : f ∈ fs
  · rw [hin f hf]
    rfl
  · rw [hout f hf, hrest f hf]
    rfl

end Scaffold.Json.Record
