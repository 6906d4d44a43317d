import Mathlib.Logic.Basic
import Scaffold.Proofs.Files.Following

/-!
# Writing files

  Whatever comes of it, an attempt to write a file takes nothing away and
  changes no other file: the directories above it are made only where nothing
  stands, and its own location is the only one that is written to. If it
  succeeds, the file can be read back. Each operation of a tree is taken in
  turn, from a single entry up to a file with all the directories above it.
-/

namespace Scaffold.Files.Tree

variable {t t' : Tree}

/-! ## Entries -/

/-- The test for equality by which locations are looked up is the one of their type. -/
theorem node?_cons (t : Tree) (name : String) (above : Location) :
    t.node? (name :: above) =
      @List.lookup Location Node instBEqOfDecidableEq (name :: above) t.entries :=
  congrArg (fun eq => @List.lookup Location Node eq (name :: above) t.entries)
    (lawful_beq_subsingleton _ _)

theorem node?_set {l : Location} (hl : l ≠ []) (n : Node) (m : Location) :
    (t.set l n).node? m = if m = l then some n else t.node? m := by
  cases m with
  | nil => rw [if_neg hl.symm]; rfl
  | cons name above =>
      rw [node?_cons, node?_cons]
      exact lookup_putEntry l n t.entries (name :: above)

/-- Nothing changes where something new is put. -/
theorem KeptBut.set_new {l : Location} (h : t.node? l = none) (n : Node) :
    KeptBut [] t (t.set l n) := by
  have hl : l ≠ [] := by
    rintro rfl
    exact nomatch h
  have hother : ∀ m node, t.node? m = some node → (t.set l n).node? m = some node := by
    intro m node hm
    have hne : m ≠ l := by
      rintro rfl
      exact nomatch h.symm.trans hm
    rw [node?_set hl, if_neg hne, hm]
  exact ⟨rfl, fun m => hother m _, fun m bytes hm => ⟨bytes, hother m _ hm, fun _ => rfl⟩⟩

/-- A file is put where no directory stands. -/
theorem KeptBut.set_file {l : Location} (hl : l ≠ []) (h : ¬ t.isDirectoryAt l = true)
    (bytes : ByteArray) : KeptBut [l] t (t.set l (.file bytes)) := by
  refine ⟨rfl, fun m hm => ?_, fun m bytes' hm => ?_⟩
  · have hne : m ≠ l := by
      rintro rfl
      exact h (isDirectoryAt_iff.mpr hm)
    rw [node?_set hl, if_neg hne, hm]
  · by_cases hml : m = l
    · rw [node?_set hl, if_pos hml]
      exact ⟨bytes, rfl, fun hnot => absurd (List.mem_singleton.mpr hml) hnot⟩
    · rw [node?_set hl, if_neg hml]
      exact ⟨bytes', hm, fun _ => rfl⟩

/-! ## Directories -/

/-- A directory is made where nothing stands. -/
theorem makeDirectory_eq_ok {p : Path} (h : t.makeDirectory p = .ok t') :
    t.node? (locate t.current p) = none ∧ t' = t.set (locate t.current p) .directory := by
  rw [Tree.makeDirectory] at h
  obtain ⟨⟨l, name⟩, hplace, h⟩ := bind_eq_ok_iff.mp h
  cases name with
  | none => exact nomatch h
  | some name =>
      obtain ⟨child, hchild, h⟩ := bind_eq_ok_iff.mp h
      obtain ⟨-, rfl⟩ := entryIn_eq_ok hchild
      rw [← cons_of_place_eq_ok hplace]
      cases hnode : t.node? (name :: l) with
      | some node =>
          rw [hnode] at h
          exact nomatch h
      | none =>
          rw [hnode] at h
          cases h
          exact ⟨rfl, rfl⟩

theorem KeptBut.makeDirectory {p : Path} (h : t.makeDirectory p = .ok t') : KeptBut [] t t' := by
  obtain ⟨hnew, rfl⟩ := makeDirectory_eq_ok h
  exact .set_new hnew .directory

/-- Directories that have been made stay, also if one further up or down cannot be made. -/
theorem KeptBut.makeDirectoriesFuel (fuel : Nat) (p : Path) (t : Tree) :
    KeptBut [] t (Tree.makeDirectoriesFuel fuel p t).2 := by
  induction fuel generalizing p t with
  | zero => exact .refl [] t
  | succ fuel ih =>
      rw [Tree.makeDirectoriesFuel]
      split
      · exact .refl [] t
      · split
        · rename_i hmade
          exact .makeDirectory hmade
        · -- nothing stands above `p` yet
          split
          · exact .refl [] t
          · rename_i above _
            have habove := ih above t
            split
            · rename_i hfuel
              rw [hfuel] at habove
              exact habove
            · rename_i hfuel
              rw [hfuel] at habove
              split
              · rename_i hmade
                exact habove.trans (.makeDirectory hmade)
              · exact habove
        · exact .refl [] t

/-! ## Files -/

/-- A file is written in a directory, where no directory stands. -/
theorem writeFile_eq_set {p : Path} {bytes : ByteArray} (h : t.writeFile p bytes = .ok t') :
    ∃ l name, t.place p = .ok (l, some name) ∧ endsInSlash p = false ∧
      t.entryIn l name = .ok (name :: l) ∧ ¬ t.isDirectoryAt (name :: l) = true ∧
      t' = t.set (name :: l) (.file bytes) := by
  rw [writeFile] at h
  obtain ⟨⟨l, name⟩, hplace, h⟩ := bind_eq_ok_iff.mp h
  cases name with
  | none => exact nomatch h
  | some name =>
      dsimp only at h
      cases hslash : endsInSlash p with
      | true =>
          rw [hslash] at h
          exact nomatch h
      | false =>
          rw [hslash] at h
          obtain ⟨child, hchild, h⟩ := bind_eq_ok_iff.mp h
          obtain ⟨-, rfl⟩ := entryIn_eq_ok hchild
          by_cases hdir : t.isDirectoryAt (name :: l) = true
          · rw [hdir] at h
            exact nomatch h
          · rw [Bool.eq_false_iff.mpr hdir] at h
            cases h
            exact ⟨l, name, hplace, rfl, hchild, hdir, rfl⟩

/-- A file that has been written in a directory stands there, and nothing else has changed. -/
theorem writeFile_eq_ok {p : Path} {bytes : ByteArray} (h : t.writeFile p bytes = .ok t') :
    KeptBut [locate t.current p] t t' ∧ t'.read p = .ok bytes := by
  obtain ⟨l, name, hplace, hslash, hchild, hdir, rfl⟩ := writeFile_eq_set h
  have hkept := KeptBut.set_file (List.cons_ne_nil name l) hdir bytes
  refine ⟨cons_of_place_eq_ok hplace ▸ hkept, ?_⟩
  have hnode : (t.set (name :: l) (.file bytes)).node? (name :: l) = some (.file bytes) := by
    rw [node?_set (List.cons_ne_nil name l), if_pos rfl]
  -- the way to the directory is still open, and now leads one step further
  obtain ⟨l₀, before, hstart, hfold, -, hdot, hdots⟩ := place_eq_ok hplace
  have hstep : (t.set (name :: l) (.file bytes)).step l name = .ok (name :: l) := by
    rw [step, if_neg (by simp [hdot, hdots])]
    refine bind_eq_ok_iff.mpr ⟨name :: l, hkept.entryIn hchild, ?_⟩
    rw [hnode]
    rfl
  refine read_eq_ok_iff.mpr ⟨name :: l, find_eq_ok_iff.mpr
    ⟨l₀, before ++ [name], (hkept.start p).trans hstart, ?_, by rw [hslash]; rfl⟩, hnode⟩
  rw [List.foldlM_append]
  refine bind_eq_ok_iff.mpr ⟨l, hkept.foldlM_step hfold, ?_⟩
  exact bind_eq_ok_iff.mpr ⟨name :: l, hstep, rfl⟩

/-- What is made before a file is written. -/
def makeAbove (t : Tree) (p : Path) : Except Fault Unit × Tree :=
  match p.parent? with
  | some above => makeDirectories above t
  | none => (.ok (), t)

theorem KeptBut.makeAbove (t : Tree) (p : Path) : KeptBut [] t (t.makeAbove p).2 := by
  rw [Tree.makeAbove]
  cases p.parent? with
  | none => exact .refl [] t
  | some above => exact .makeDirectoriesFuel _ above t

/-- What comes of a write behind what has been made. -/
def writeBehind (p : Path) (bytes : ByteArray) : Except Fault Unit × Tree → Except Fault Unit × Tree
  | (.error f, t) => (.error f, t)
  | (.ok (), t) => match t.writeFile p bytes with
    | .ok t' => (.ok (), t')
    | .error f => (.error f, t)

theorem write_eq (t : Tree) (p : Path) (bytes : ByteArray) :
    t.write p bytes = writeBehind p bytes (t.makeAbove p) := by
  rw [write, makeAbove]
  cases p.parent? with
  | none => rfl
  | some above =>
      dsimp only
      rcases makeDirectories above t with ⟨made, t'⟩
      cases made <;> rfl

/-- A file is written behind the directories above it, or not at all. -/
theorem write_cases (t : Tree) (p : Path) (bytes : ByteArray) :
    (∃ f, t.write p bytes = (.error f, (t.makeAbove p).2)) ∨
      ∃ t', (t.makeAbove p).2.writeFile p bytes = .ok t' ∧ t.write p bytes = (.ok (), t') := by
  rw [write_eq]
  rcases t.makeAbove p with ⟨made, t₁⟩
  cases made with
  | error f => exact Or.inl ⟨f, rfl⟩
  | ok u =>
      rw [writeBehind]
      cases t₁.writeFile p bytes with
      | error f => exact Or.inl ⟨f, rfl⟩
      | ok t' => exact Or.inr ⟨t', rfl, rfl⟩

/-- Writing changes no other file, whether it succeeds or not. -/
theorem KeptBut.write (t : Tree) (p : Path) (bytes : ByteArray) :
    KeptBut [locate t.current p] t (t.write p bytes).2 := by
  have hkept := KeptBut.makeAbove t p
  rcases write_cases t p bytes with ⟨f, hwrite⟩ | ⟨t', hfile, hwrite⟩
  · rw [hwrite]
    exact hkept.trans (.refl [locate t.current p] _)
  · rw [hwrite, ← hkept.current]
    exact hkept.trans (writeFile_eq_ok hfile).1

/-- What has been written can be read back. -/
theorem read_of_write {p : Path} {bytes : ByteArray} (h : t.write p bytes = (.ok (), t')) :
    t'.read p = .ok bytes := by
  rcases write_cases t p bytes with ⟨f, hwrite⟩ | ⟨t₁, hfile, hwrite⟩
  · exact nomatch (Prod.mk.inj (hwrite.symm.trans h)).1
  · rw [← (Prod.mk.inj (hwrite.symm.trans h)).2]
    exact (writeFile_eq_ok hfile).2

end Scaffold.Files.Tree
