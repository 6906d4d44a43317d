import Scaffold.Proofs.Files.Writing

/-!
# All that writes change

  Writes in a row change a tree in two ways only: they put files at the
  locations of the writes that succeed, where the last one counts, and they make
  directories on the way up from the paths that are tried. So the files behind
  them are known exactly, and a write that fails puts none. The heart is that
  such changes can be joined: what one write does to the files that an earlier
  one has left is told by the list of both.
-/

namespace Scaffold.Files

/-- What is put last at a location. -/
def lastAt (l : Location) : List (Location × ByteArray) → Option ByteArray
  | [] => none
  | file :: files => (lastAt l files).or (if file.1 = l then some file.2 else none)

theorem lastAt_append (l : Location) (files files' : List (Location × ByteArray)) :
    lastAt l (files ++ files') = (lastAt l files').or (lastAt l files) := by
  induction files with
  | nil => exact Option.or_none.symm
  | cons file files ih => rw [List.cons_append, lastAt, lastAt, ih, Option.or_assoc]

/-- The one path is the parent of the other, or further up. -/
inductive IsAbove (q : Path) : Path → Prop where
  | parent {p : Path} : p.parent? = some q → IsAbove q p
  | further {p above : Path} : p.parent? = some above → IsAbove q above → IsAbove q p

namespace Tree

/-- The bytes of the file at a location. -/
def bytes? (t : Tree) (l : Location) : Option ByteArray :=
  match t.node? l with
  | some (.file bytes) => some bytes
  | _ => none

/-- The files of `t'` are those of `t` with others put over them, its directories are those of `t`
    and some that have been made. -/
structure Changes (put : List (Location × ByteArray)) (made : Location → Prop) (t t' : Tree) :
    Prop where
  current : t'.current = t.current
  files : ∀ l, t'.bytes? l = (lastAt l put).or (t.bytes? l)
  kept : ∀ l, t.node? l = some .directory → t'.node? l = some .directory
  new : ∀ l, t'.node? l = some .directory → t.node? l = some .directory ∨ made l

variable {t t' t'' : Tree}

theorem bytes?_set_file {l : Location} (hl : l ≠ []) (bytes : ByteArray) (m : Location) :
    (t.set l (.file bytes)).bytes? m = if l = m then some bytes else t.bytes? m := by
  rw [bytes?, node?_set hl]
  by_cases hm : l = m
  · rw [if_pos hm.symm, if_pos hm]
  · rw [if_neg (Ne.symm hm), if_neg hm]
    rfl

theorem bytes?_set_new {l : Location} (h : t.node? l = none) (m : Location) :
    (t.set l .directory).bytes? m = t.bytes? m := by
  have hl : l ≠ [] := by
    rintro rfl
    exact nomatch h
  rw [bytes?, bytes?, node?_set hl]
  by_cases hm : m = l
  · rw [if_pos hm, hm, h]
  · rw [if_neg hm]

namespace Changes

variable {put put' : List (Location × ByteArray)} {made made' : Location → Prop}

/-! ## Changes in a row -/

theorem refl (made : Location → Prop) (t : Tree) : Changes [] made t t where
  current := rfl
  files _ := rfl
  kept _ h := h
  new _ h := Or.inl h

theorem trans (h : Changes put made t t') (h' : Changes put' made t' t'') :
    Changes (put ++ put') made t t'' where
  current := h'.current.trans h.current
  files l := by rw [h'.files, h.files, lastAt_append, Option.or_assoc]
  kept l hl := h'.kept l (h.kept l hl)
  new l hl := (h'.new l hl).elim (h.new l) Or.inr

theorem mono (h : Changes put made t t') (hsub : ∀ l, made l → made' l) :
    Changes put made' t t' where
  current := h.current
  files := h.files
  kept := h.kept
  new l hl := (h.new l hl).imp_right (hsub l)

/-! ## Entries -/

theorem set_file {l : Location} (hl : l ≠ []) (h : ¬ t.isDirectoryAt l = true)
    (bytes : ByteArray) (made : Location → Prop) :
    Changes [(l, bytes)] made t (t.set l (.file bytes)) where
  current := rfl
  files m := by
    rw [bytes?_set_file hl, lastAt, lastAt, Option.none_or]
    split <;> rfl
  kept := (KeptBut.set_file hl h bytes).directory
  new m hm := by
    rw [node?_set hl] at hm
    split at hm
    · exact nomatch hm
    · exact Or.inl hm

theorem makeDirectory {p : Path} (h : t.makeDirectory p = .ok t') :
    Changes [] (· = locate t.current p) t t' := by
  have hkept := (KeptBut.makeDirectory h).directory
  obtain ⟨hnew, rfl⟩ := makeDirectory_eq_ok h
  refine ⟨rfl, bytes?_set_new hnew, hkept, fun l hl => ?_⟩
  have hroot : locate t.current p ≠ [] := by
    intro hroot
    rw [hroot] at hnew
    exact nomatch hnew
  rw [node?_set hroot] at hl
  split at hl
  · rename_i heq
    exact Or.inr heq
  · exact Or.inl hl

/-! ## Whole paths -/

/-- Directories are made at a path and on the way up from it, whatever comes of it. -/
theorem makeDirectoriesFuel (fuel : Nat) (p : Path) (t : Tree) :
    Changes [] (fun l => ∃ q, (q = p ∨ IsAbove q p) ∧ l = locate t.current q) t
      (Tree.makeDirectoriesFuel fuel p t).2 := by
  induction fuel generalizing p t with
  | zero => exact .refl _ t
  | succ fuel ih =>
      rw [Tree.makeDirectoriesFuel]
      split
      · exact .refl _ t
      · split
        · rename_i hmade
          exact (makeDirectory hmade).mono fun l hl => ⟨p, Or.inl rfl, hl⟩
        · -- nothing stands above `p` yet
          split
          · exact .refl _ t
          · rename_i above hparent
            have habove : Changes [] (fun l => ∃ q, (q = p ∨ IsAbove q p) ∧ l = locate t.current q) t
                (Tree.makeDirectoriesFuel fuel above t).2 := by
              refine (ih above t).mono ?_
              rintro l ⟨q, rfl | hq, hl⟩
              · exact ⟨q, Or.inr (.parent hparent), hl⟩
              · exact ⟨q, Or.inr (.further hparent hq), hl⟩
            split
            · rename_i hfuel
              rw [hfuel] at habove
              exact habove
            · rename_i hfuel
              rw [hfuel] at habove
              split
              · rename_i hmade
                refine habove.trans ((makeDirectory hmade).mono fun l hl => ⟨p, Or.inl rfl, ?_⟩)
                rw [← habove.current]
                exact hl
              · exact habove
        · exact .refl _ t

theorem makeAbove (t : Tree) (p : Path) :
    Changes [] (fun l => ∃ q, IsAbove q p ∧ l = locate t.current q) t (t.makeAbove p).2 := by
  rw [Tree.makeAbove]
  cases hparent : p.parent? with
  | none => exact .refl _ t
  | some above =>
      refine (makeDirectoriesFuel _ above t).mono ?_
      rintro l ⟨q, rfl | hq, hl⟩
      · exact ⟨q, .parent hparent, hl⟩
      · exact ⟨q, .further hparent hq, hl⟩

theorem writeFile {p : Path} {bytes : ByteArray} (h : t.writeFile p bytes = .ok t')
    (made : Location → Prop) : Changes [(locate t.current p, bytes)] made t t' := by
  obtain ⟨l, name, hplace, -, -, hdir, rfl⟩ := writeFile_eq_set h
  rw [← cons_of_place_eq_ok hplace]
  exact .set_file (List.cons_ne_nil name l) hdir bytes made

/-- A write puts its file if it succeeds and none if it fails, and makes directories above its path
    either way. -/
theorem write (t : Tree) (p : Path) (bytes : ByteArray) :
    Changes (if (t.write p bytes).1.isOk then [(locate t.current p, bytes)] else [])
      (fun l => ∃ q, IsAbove q p ∧ l = locate t.current q) t (t.write p bytes).2 := by
  have habove := makeAbove t p
  rcases write_cases t p bytes with ⟨f, hwrite⟩ | ⟨t', hfile, hwrite⟩
  · rw [hwrite]
    exact habove
  · have hput := writeFile hfile fun l => ∃ q, IsAbove q p ∧ l = locate t.current q
    rw [habove.current] at hput
    rw [hwrite]
    exact habove.trans hput

end Changes

end Tree

end Scaffold.Files
