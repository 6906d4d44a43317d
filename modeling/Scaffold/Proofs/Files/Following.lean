import Scaffold.Files.Tree
import Scaffold.Proofs.Except
import Scaffold.Proofs.Path

/-!
# Following paths

  Where a path leads can be told from its text and the current directory alone,
  because there are no links: if a tree can follow the path at all, it comes to
  the location that `locate` gives. A tree may also change while files are
  written. The heart is that the way to a file passes through directories only,
  so it stays open as long as nothing is taken away, and the file at its end
  stays as it is unless its own location is written to.
-/

namespace Scaffold.Files

/-! ## Locations of paths -/

/-- Where a piece of a path leads. -/
def along (l : Location) (piece : String) : Location :=
  if piece = "." then l else if piece = ".." then l.tail else piece :: l

/-- Where a path leads from the current directory. -/
def locate (current : Location) (p : Path) : Location :=
  p.steps.foldl along (if p.isAbsolute then [] else current)

theorem along_name {piece : String} (hdot : piece ≠ ".") (hdots : piece ≠ "..") (l : Location) :
    along l piece = piece :: l := by
  rw [along, if_neg hdot, if_neg hdots]

/-- A single dot leads nowhere else. -/
theorem foldl_along_filter (l : Location) (pieces : List String) :
    (pieces.filter fun piece => piece != "" && piece != ".").foldl along l =
      (pieces.filter (!·.isEmpty)).foldl along l := by
  induction pieces generalizing l with
  | nil => rfl
  | cons piece rest ih =>
      by_cases hempty : piece = ""
      · rw [List.filter_cons_of_neg (by simp [hempty]), List.filter_cons_of_neg (by simp [hempty])]
        exact ih l
      · by_cases hdot : piece = "."
        · rw [List.filter_cons_of_neg (by simp [hdot]), List.filter_cons_of_pos (by simp [hempty]),
            List.foldl_cons, along, if_pos hdot, ih]
        · rw [List.filter_cons_of_pos (by simp [hempty, hdot]),
            List.filter_cons_of_pos (by simp [hempty]), List.foldl_cons, List.foldl_cons, ih]

/-- An entry of a directory. -/
theorem locate_join_name (current : Location) (p : Path) {name : String} (h : Path.IsName name) :
    locate current (p.join name) = name :: locate current p := by
  rw [locate, locate, Path.steps_join_name p h, Path.isAbsolute_join_name p h, List.foldl_append,
    List.foldl_cons, List.foldl_nil, along_name h.not_here h.not_above]

namespace Tree

theorem isDirectoryAt_iff {t : Tree} {l : Location} :
    t.isDirectoryAt l = true ↔ t.node? l = some .directory := by
  rw [isDirectoryAt]
  constructor
  · intro h
    split at h
    · assumption
    · exact nomatch h
  · intro h
    rw [h]

/-! ## Steps -/

theorem entryIn_eq_ok {t : Tree} {l child : Location} {name : String}
    (h : t.entryIn l name = .ok child) : t.isDirectoryAt l = true ∧ child = name :: l := by
  rw [entryIn] at h
  split at h
  · exact nomatch h
  · rename_i hdir
    split at h
    · exact nomatch h
    · exact ⟨by simpa using hdir, (Except.ok.inj h).symm⟩

/-- A step leads along the piece, from a directory. -/
theorem step_eq_ok {t : Tree} {l l' : Location} {piece : String} (h : t.step l piece = .ok l') :
    l' = along l piece ∧ t.isDirectoryAt l = true := by
  rw [step] at h
  by_cases hdots : (piece = "." || piece = "..") = true
  · rw [if_pos hdots] at h
    split at h
    · rename_i hdir
      refine ⟨?_, hdir⟩
      rw [← Except.ok.inj h, along]
      by_cases hdot : piece = "."
      · rw [if_pos hdot, if_pos hdot]
      · have hdots' : piece = ".." := by simpa [hdot] using hdots
        rw [if_neg hdot, if_neg hdot, if_pos hdots']
    · exact nomatch h
  · rw [if_neg hdots] at h
    obtain ⟨hdot, hdots'⟩ : piece ≠ "." ∧ piece ≠ ".." := by simpa using hdots
    obtain ⟨child, hchild, h⟩ := bind_eq_ok_iff.mp h
    obtain ⟨hdir, rfl⟩ := entryIn_eq_ok hchild
    split at h
    · rw [along_name hdot hdots']
      exact ⟨(Except.ok.inj h).symm, hdir⟩
    · exact nomatch h

theorem foldlM_step_eq_ok {t : Tree} {l l' : Location} {pieces : List String}
    (h : pieces.foldlM t.step l = .ok l') : l' = pieces.foldl along l := by
  induction pieces generalizing l with
  | nil => exact (Except.ok.inj h).symm
  | cons piece rest ih =>
      rw [List.foldlM_cons] at h
      obtain ⟨m, hm, hrest⟩ := bind_eq_ok_iff.mp h
      rw [ih hrest, (step_eq_ok hm).1, List.foldl_cons]

theorem start_eq_ok {t : Tree} {p : Path} {l : Location} {pieces : List String}
    (h : t.start p = .ok (l, pieces)) :
    l = (if p.isAbsolute then [] else t.current) ∧ pieces = p.pieces.filter (!·.isEmpty) := by
  rw [start] at h
  split at h
  · exact nomatch h
  · split at h
    · exact nomatch h
    · split at h
      · exact nomatch h
      · obtain ⟨hl, hpieces⟩ := Prod.mk.inj (Except.ok.inj h)
        exact ⟨hl.symm, hpieces.symm⟩

theorem locate_eq_foldl (current : Location) (p : Path) :
    locate current p =
      (p.pieces.filter (!·.isEmpty)).foldl along (if p.isAbsolute then [] else current) :=
  foldl_along_filter _ _

/-! ## Whole paths -/

/-- What makes a path lead to something that exists. -/
theorem find_eq_ok_iff {t : Tree} {p : Path} {l : Location} :
    t.find p = .ok l ↔
      ∃ l₀ pieces, t.start p = .ok (l₀, pieces) ∧ pieces.foldlM t.step l₀ = .ok l ∧
        (endsInSlash p && !t.isDirectoryAt l) = false := by
  rw [find]
  constructor
  · intro h
    obtain ⟨⟨l₀, pieces⟩, hstart, h⟩ := bind_eq_ok_iff.mp h
    obtain ⟨m, hm, h⟩ := bind_eq_ok_iff.mp h
    by_cases hslash : (endsInSlash p && !t.isDirectoryAt m) = true
    · rw [if_pos hslash] at h
      exact nomatch h
    · rw [if_neg hslash] at h
      cases h
      exact ⟨l₀, pieces, hstart, hm, Bool.eq_false_iff.mpr hslash⟩
  · rintro ⟨l₀, pieces, hstart, hm, hslash⟩
    refine bind_eq_ok_iff.mpr ⟨_, hstart, bind_eq_ok_iff.mpr ⟨l, hm, ?_⟩⟩
    rw [if_neg (by rw [hslash]; exact nofun)]
    rfl

/-- A path that can be followed leads where its text tells. -/
theorem find_eq_ok {t : Tree} {p : Path} {l : Location} (h : t.find p = .ok l) :
    l = locate t.current p := by
  obtain ⟨l₀, pieces, hstart, hfold, -⟩ := find_eq_ok_iff.mp h
  obtain ⟨rfl, rfl⟩ := start_eq_ok hstart
  rw [foldlM_step_eq_ok hfold, locate_eq_foldl]

/-- What makes a path lead to a name in a directory. -/
theorem place_eq_ok {t : Tree} {p : Path} {l : Location} {name : String}
    (h : t.place p = .ok (l, some name)) :
    ∃ l₀ before, t.start p = .ok (l₀, before ++ [name]) ∧ before.foldlM t.step l₀ = .ok l ∧
      t.isDirectoryAt l = true ∧ name ≠ "." ∧ name ≠ ".." := by
  rw [place] at h
  obtain ⟨⟨l₀, pieces⟩, hstart, h⟩ := bind_eq_ok_iff.mp h
  dsimp only at h
  cases hrev : pieces.reverse with
  | nil =>
      rw [hrev] at h
      exact nomatch h
  | cons last before =>
      rw [hrev] at h
      obtain ⟨m, hm, h⟩ := bind_eq_ok_iff.mp h
      by_cases hdots : (last = "." || last = "..") = true
      · rw [if_pos hdots] at h
        obtain ⟨m', -, h⟩ := bind_eq_ok_iff.mp h
        exact nomatch h
      · rw [if_neg hdots] at h
        by_cases hdir : t.isDirectoryAt m = true
        · have hpieces : pieces = before.reverse ++ [last] := by
            rw [← List.reverse_reverse pieces, hrev, List.reverse_cons]
          obtain ⟨hdot, hdots'⟩ : last ≠ "." ∧ last ≠ ".." := by simpa using hdots
          rw [hpieces] at hstart
          rw [hdir] at h
          obtain ⟨rfl, hname⟩ := Prod.mk.inj (Except.ok.inj h)
          rw [← Option.some.inj hname]
          exact ⟨l₀, before.reverse, hstart, hm, hdir, hdot, hdots'⟩
        · rw [Bool.eq_false_iff.mpr hdir] at h
          exact nomatch h

/-- A new entry goes where the path leads. -/
theorem cons_of_place_eq_ok {t : Tree} {p : Path} {l : Location} {name : String}
    (h : t.place p = .ok (l, some name)) : name :: l = locate t.current p := by
  obtain ⟨l₀, before, hstart, hfold, -, hdot, hdots⟩ := place_eq_ok h
  obtain ⟨rfl, hpieces⟩ := start_eq_ok hstart
  rw [locate_eq_foldl, ← hpieces, List.foldl_append, ← foldlM_step_eq_ok hfold, List.foldl_cons,
    List.foldl_nil, along_name hdot hdots]

/-! ## Trees that change -/

/-- Nothing of `t` is missing in `t'`, and no file differs but at a changed location. -/
structure KeptBut (changed : List Location) (t t' : Tree) : Prop where
  current : t'.current = t.current
  directory : ∀ l, t.node? l = some .directory → t'.node? l = some .directory
  file : ∀ l bytes, t.node? l = some (.file bytes) →
    ∃ bytes', t'.node? l = some (.file bytes') ∧ (l ∉ changed → bytes' = bytes)

namespace KeptBut

variable {changed changed' : List Location} {t t' t'' : Tree}

theorem refl (changed : List Location) (t : Tree) : KeptBut changed t t where
  current := rfl
  directory _ h := h
  file _ bytes h := ⟨bytes, h, fun _ => rfl⟩

theorem trans (h : KeptBut changed t t') (h' : KeptBut changed' t' t'') :
    KeptBut (changed ++ changed') t t'' where
  current := h'.current.trans h.current
  directory l hl := h'.directory l (h.directory l hl)
  file l bytes hl := by
    obtain ⟨bytes', hl', heq⟩ := h.file l bytes hl
    obtain ⟨bytes'', hl'', heq'⟩ := h'.file l bytes' hl'
    refine ⟨bytes'', hl'', fun hnot => ?_⟩
    rw [List.mem_append, not_or] at hnot
    rw [heq' hnot.2, heq hnot.1]

theorem mono (h : KeptBut changed t t') (hsub : ∀ l ∈ changed, l ∈ changed') :
    KeptBut changed' t t' where
  current := h.current
  directory := h.directory
  file l bytes hl := by
    obtain ⟨bytes', hl', heq⟩ := h.file l bytes hl
    exact ⟨bytes', hl', fun hnot => heq fun hmem => hnot (hsub l hmem)⟩

theorem isDirectoryAt (h : KeptBut changed t t') {l : Location} (hl : t.isDirectoryAt l = true) :
    t'.isDirectoryAt l = true :=
  isDirectoryAt_iff.mpr (h.directory l (isDirectoryAt_iff.mp hl))

theorem isSome_node (h : KeptBut changed t t') {l : Location} (hl : (t.node? l).isSome = true) :
    (t'.node? l).isSome = true := by
  cases hnode : t.node? l with
  | none => rw [hnode] at hl; exact nomatch hl
  | some node =>
      cases node with
      | directory => rw [h.directory l hnode]; rfl
      | file bytes =>
          obtain ⟨bytes', hl', -⟩ := h.file l bytes hnode
          rw [hl']
          rfl

theorem entryIn (h : KeptBut changed t t') {l child : Location} {name : String}
    (hchild : t.entryIn l name = .ok child) : t'.entryIn l name = .ok child := by
  have hdir := (entryIn_eq_ok hchild).1
  rw [Tree.entryIn, hdir] at hchild
  rw [Tree.entryIn, h.isDirectoryAt hdir]
  exact hchild

theorem step (h : KeptBut changed t t') {l l' : Location} {piece : String}
    (hstep : t.step l piece = .ok l') : t'.step l piece = .ok l' := by
  have hdir := (step_eq_ok hstep).2
  rw [Tree.step] at hstep ⊢
  by_cases hdots : (piece = "." || piece = "..") = true
  · rw [if_pos hdots, hdir] at hstep
    rw [if_pos hdots, h.isDirectoryAt hdir]
    exact hstep
  · rw [if_neg hdots] at hstep ⊢
    -- a name leads on because its entry is there, whatever it is by now
    obtain ⟨child, hchild, hthere⟩ := bind_eq_ok_iff.mp hstep
    refine bind_eq_ok_iff.mpr ⟨child, h.entryIn hchild, ?_⟩
    by_cases hsome : (t.node? child).isSome = true
    · rw [if_pos hsome] at hthere
      rw [if_pos (h.isSome_node hsome)]
      exact hthere
    · rw [if_neg hsome] at hthere
      exact nomatch hthere

theorem foldlM_step (h : KeptBut changed t t') {l l' : Location} {pieces : List String}
    (hfold : pieces.foldlM t.step l = .ok l') : pieces.foldlM t'.step l = .ok l' := by
  induction pieces generalizing l with
  | nil => exact hfold
  | cons piece rest ih =>
      rw [List.foldlM_cons] at hfold ⊢
      obtain ⟨m, hm, hrest⟩ := bind_eq_ok_iff.mp hfold
      exact bind_eq_ok_iff.mpr ⟨m, h.step hm, ih hrest⟩

theorem start (h : KeptBut changed t t') (p : Path) : t'.start p = t.start p := by
  rw [Tree.start, Tree.start, h.current]

/-- A path that could be followed can still be followed. -/
theorem find (h : KeptBut changed t t') {p : Path} {l : Location} (hfind : t.find p = .ok l) :
    t'.find p = .ok l := by
  obtain ⟨l₀, pieces, hstart, hfold, hslash⟩ := find_eq_ok_iff.mp hfind
  refine find_eq_ok_iff.mpr ⟨l₀, pieces, (h.start p).trans hstart, h.foldlM_step hfold, ?_⟩
  cases hends : endsInSlash p with
  | false => rfl
  | true =>
      rw [hends, Bool.true_and, Bool.not_eq_false'] at hslash
      rw [h.isDirectoryAt hslash]
      rfl

end KeptBut

/-! ## Reading -/

theorem read_eq_ok_iff {t : Tree} {p : Path} {bytes : ByteArray} :
    t.read p = .ok bytes ↔ ∃ l, t.find p = .ok l ∧ t.node? l = some (.file bytes) := by
  rw [read]
  constructor
  · intro h
    obtain ⟨l, hl, h⟩ := bind_eq_ok_iff.mp h
    refine ⟨l, hl, ?_⟩
    split at h
    · cases h
      assumption
    · exact nomatch h
    · exact nomatch h
  · rintro ⟨l, hl, hnode⟩
    refine bind_eq_ok_iff.mpr ⟨l, hl, ?_⟩
    rw [hnode]
    rfl

/-- Paths to one location read one file. -/
theorem read_unique {t : Tree} {p q : Path} {bytes bytes' : ByteArray} (hp : t.read p = .ok bytes)
    (hq : t.read q = .ok bytes') (h : locate t.current p = locate t.current q) : bytes = bytes' := by
  obtain ⟨l, hfind, hnode⟩ := read_eq_ok_iff.mp hp
  obtain ⟨l', hfind', hnode'⟩ := read_eq_ok_iff.mp hq
  rw [find_eq_ok hfind, h, ← find_eq_ok hfind', hnode'] at hnode
  cases hnode
  rfl

/-- A file can still be read, and is the same unless it has been changed. -/
theorem KeptBut.read {changed : List Location} {t t' : Tree} (h : KeptBut changed t t') {p : Path}
    {bytes : ByteArray} (hread : t.read p = .ok bytes) :
    ∃ bytes', t'.read p = .ok bytes' ∧ (locate t.current p ∉ changed → bytes' = bytes) := by
  obtain ⟨l, hfind, hnode⟩ := read_eq_ok_iff.mp hread
  obtain ⟨bytes', hnode', heq⟩ := h.file l bytes hnode
  -- `changed` speaks of locations, and the path has been followed to `l`
  rw [← find_eq_ok hfind]
  exact ⟨bytes', read_eq_ok_iff.mpr ⟨l, h.find hfind, hnode'⟩, heq⟩

end Tree

end Scaffold.Files
