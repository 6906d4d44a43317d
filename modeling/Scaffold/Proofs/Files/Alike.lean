import Mathlib.Data.List.Nodup
import Scaffold.Proofs.Files.Writing

/-!
# Trees that are alike

  Two trees can have the same files and directories and list them in different
  orders. No operation on a tree tells them apart, but for the order in which
  names are listed: a path is followed to the same place or fails for the same
  cause, and what is written leaves trees that are alike again. The heart is
  that every operation looks at what stands at a location, and never at the
  list of entries itself.
-/

namespace Scaffold.Files.Tree

/-- The trees have the same files and directories, in whatever order. -/
structure Alike (t t' : Tree) : Prop where
  current : t.current = t'.current
  node : ∀ l, t.node? l = t'.node? l

/-! ## Names -/

variable {t t' : Tree} {l : Location}

/-- What stands at a location, but for the root, is an entry. -/
theorem node?_eq_some_iff {name : String} {n : Node} :
    t.node? (name :: l) = some n ↔ (name :: l, n) ∈ t.entries := by
  have hnode : t.node? (name :: l) = t.entries.lookup (name :: l) := rfl
  rw [hnode, List.lookup_eq_some_iff]
  constructor
  · rintro ⟨before, after, hentries, -⟩
    rw [hentries]
    exact List.mem_append_right before List.mem_cons_self
  · intro hmem
    obtain ⟨before, after, hentries⟩ := List.append_of_mem hmem
    have hdistinct := t.distinct
    rw [hentries, List.map_append, List.map_cons] at hdistinct
    refine ⟨before, after, hentries, fun e he => bne_iff_ne.mpr ?_⟩
    rintro heq
    exact (List.nodup_append.mp hdistinct).2.2 _ (List.mem_map_of_mem he) _ List.mem_cons_self
      heq.symm

theorem node?_erase (t : Tree) (l : Location) (name : String) (above : Location) :
    (t.erase l).node? (name :: above) =
      if name :: above = l then none else t.node? (name :: above) := by
  refine Option.ext fun n => ?_
  have hmem : (name :: above, n) ∈ (t.erase l).entries ↔
      (name :: above, n) ∈ t.entries ∧ name :: above ≠ l := by
    rw [erase, List.mem_filter, bne_iff_ne]
  rw [node?_eq_some_iff, hmem]
  split
  · rename_i heq
    exact ⟨fun h => absurd heq h.2, nofun⟩
  · rename_i hne
    rw [node?_eq_some_iff, and_iff_left hne]

/-- The name of a location in a directory. -/
def nameIn? (l : Location) : Location → Option String
  | name :: above => if above = l then some name else none
  | [] => none

theorem nameIn?_eq_some_iff {l m : Location} {name : String} :
    nameIn? l m = some name ↔ m = name :: l := by
  cases m with
  | nil => exact ⟨nofun, nofun⟩
  | cons first above =>
      rw [nameIn?, List.cons.injEq]
      by_cases habove : above = l
      · rw [if_pos habove, Option.some.injEq, and_iff_left habove]
      · rw [if_neg habove]
        exact ⟨nofun, fun h => absurd h.2 habove⟩

theorem namesAt_eq (t : Tree) (l : Location) :
    t.namesAt l = (t.entries.map Prod.fst).filterMap (nameIn? l) := by
  rw [List.filterMap_map]
  rfl

theorem nodup_namesAt (t : Tree) (l : Location) : (t.namesAt l).Nodup := by
  rw [namesAt_eq]
  refine List.Nodup.filterMap (fun m m' name hm hm' => ?_) t.distinct
  rw [nameIn?_eq_some_iff.mp hm, nameIn?_eq_some_iff.mp hm']

/-- The names in a directory are those under which something stands. -/
theorem mem_namesAt {name : String} :
    name ∈ t.namesAt l ↔ (t.node? (name :: l)).isSome = true := by
  rw [namesAt_eq, List.mem_filterMap, Option.isSome_iff_exists]
  constructor
  · rintro ⟨m, hm, hname⟩
    obtain ⟨⟨_, n⟩, he, rfl⟩ := List.mem_map.mp hm
    obtain rfl := nameIn?_eq_some_iff.mp hname
    exact ⟨n, node?_eq_some_iff.mpr he⟩
  · rintro ⟨n, hn⟩
    exact ⟨name :: l, List.mem_map_of_mem (node?_eq_some_iff.mp hn), nameIn?_eq_some_iff.mpr rfl⟩

namespace Alike

/-- Trees with the same entries in different orders are alike. -/
theorem of_perm (hentries : t.entries.Perm t'.entries) (hcurrent : t.current = t'.current) :
    Alike t t' := by
  refine ⟨hcurrent, fun l => ?_⟩
  cases l with
  | nil => rfl
  | cons name above =>
      refine Option.ext fun n => ?_
      rw [node?_eq_some_iff, node?_eq_some_iff]
      exact hentries.mem_iff

variable (h : Alike t t')
include h

/-- The same names are in a directory. -/
theorem perm_namesAt (l : Location) : (t.namesAt l).Perm (t'.namesAt l) := by
  rw [List.perm_ext_iff_of_nodup (nodup_namesAt t l) (nodup_namesAt t' l)]
  intro name
  rw [mem_namesAt, mem_namesAt, h.node]

/-! ## Looking -/

theorem isDirectoryAt (l : Location) : t.isDirectoryAt l = t'.isDirectoryAt l := by
  rw [Tree.isDirectoryAt, Tree.isDirectoryAt, h.node]

theorem entryIn (l : Location) (name : String) : t.entryIn l name = t'.entryIn l name := by
  rw [Tree.entryIn, Tree.entryIn, h.isDirectoryAt]

theorem step : t.step = t'.step := by
  funext l piece
  rw [Tree.step, Tree.step, h.isDirectoryAt, h.entryIn]
  simp only [h.node]

theorem start (p : Path) : t.start p = t'.start p := by
  rw [Tree.start, Tree.start, h.current]

theorem find (p : Path) : t.find p = t'.find p := by
  rw [Tree.find, Tree.find, h.start, h.step]
  simp only [h.isDirectoryAt]

theorem place (p : Path) : t.place p = t'.place p := by
  rw [Tree.place, Tree.place, h.start, h.step]
  simp only [h.isDirectoryAt]

theorem isDirectory (p : Path) : t.isDirectory p = t'.isDirectory p := by
  rw [Tree.isDirectory, Tree.isDirectory, h.find]
  simp only [h.isDirectoryAt]

theorem isFile : t.isFile = t'.isFile := by
  funext p
  rw [Tree.isFile, Tree.isFile, h.find]
  simp only [h.isDirectoryAt]

theorem read (p : Path) : t.read p = t'.read p := by
  rw [Tree.read, Tree.read, h.find]
  simp only [h.node]

/-! ## Changing -/

theorem set (l : Location) (n : Node) : Alike (t.set l n) (t'.set l n) := by
  refine ⟨h.current, fun m => ?_⟩
  cases m with
  | nil => rfl
  | cons name above =>
      have hnode := h.node (name :: above)
      rw [node?_cons, node?_cons] at hnode ⊢
      exact (lookup_putEntry l n t.entries _).trans
        (hnode ▸ (lookup_putEntry l n t'.entries _).symm)

theorem erase (l : Location) : Alike (t.erase l) (t'.erase l) := by
  refine ⟨h.current, fun m => ?_⟩
  cases m with
  | nil => rfl
  | cons name above => rw [node?_erase, node?_erase, h.node]

end Alike

/-- What comes of a change of trees that are alike. -/
inductive SameChange : Except Fault Tree → Except Fault Tree → Prop where
  | ok {t t' : Tree} (h : Alike t t') : SameChange (.ok t) (.ok t')
  | error (f : Fault) : SameChange (.error f) (.error f)

/-- What comes of an attempt that may leave some of its work behind. -/
structure SameAttempt (r r' : Except Fault Unit × Tree) : Prop where
  result : r.1 = r'.1
  alike : Alike r.2 r'.2

namespace Alike

theorem makeDirectory (h : Alike t t') (p : Path) :
    SameChange (t.makeDirectory p) (t'.makeDirectory p) := by
  rw [Tree.makeDirectory, Tree.makeDirectory, h.place]
  rcases t'.place p with f | ⟨l, - | name⟩
  · exact .error f
  · exact .error .alreadyExists
  · dsimp only [bind, Except.bind]
    rw [h.entryIn]
    cases t'.entryIn l name with
    | error f => exact .error f
    | ok child =>
        dsimp only
        rw [h.node]
        cases (t'.node? child).isSome with
        | true => exact .error .alreadyExists
        | false => exact .ok (h.set child .directory)

theorem makeDirectoriesFuel (h : Alike t t') (fuel : Nat) (p : Path) :
    SameAttempt (Tree.makeDirectoriesFuel fuel p t) (Tree.makeDirectoriesFuel fuel p t') := by
  induction fuel generalizing p with
  | zero => exact ⟨rfl, h⟩
  | succ fuel ih =>
      rw [Tree.makeDirectoriesFuel, Tree.makeDirectoriesFuel]
      by_cases hempty : p.text.isEmpty = true
      · rw [if_pos hempty, if_pos hempty]
        exact ⟨rfl, h⟩
      · rw [if_neg hempty, if_neg hempty]
        have hmade := h.makeDirectory p
        generalize t.makeDirectory p = r, t'.makeDirectory p = r' at hmade
        cases hmade with
        | ok h => exact ⟨rfl, h⟩
        | error f =>
            cases f with
            | notFound =>
                -- nothing stands above `p` yet
                cases p.parent? with
                | none => exact ⟨rfl, h⟩
                | some above =>
                    have hrec := ih above
                    dsimp only
                    generalize Tree.makeDirectoriesFuel fuel above t = r₁,
                      Tree.makeDirectoriesFuel fuel above t' = r₁' at hrec
                    obtain ⟨made, t₁⟩ := r₁
                    obtain ⟨made', t₁'⟩ := r₁'
                    obtain ⟨rfl : made = made', habove : Alike t₁ t₁'⟩ := hrec
                    cases made with
                    | error f => exact ⟨rfl, habove⟩
                    | ok u =>
                        have hmade := habove.makeDirectory p
                        dsimp only
                        generalize t₁.makeDirectory p = r, t₁'.makeDirectory p = r' at hmade
                        cases hmade with
                        | ok h => exact ⟨rfl, h⟩
                        | error f =>
                            dsimp only
                            rw [habove.isDirectory]
                            exact ⟨rfl, habove⟩
            | _ =>
                rw [h.isDirectory]
                exact ⟨rfl, h⟩

theorem writeFile (h : Alike t t') (p : Path) (bytes : ByteArray) :
    SameChange (t.writeFile p bytes) (t'.writeFile p bytes) := by
  rw [Tree.writeFile, Tree.writeFile, h.place]
  rcases t'.place p with f | ⟨l, - | name⟩
  · exact .error f
  · exact .error .isDirectory
  · dsimp only [bind, Except.bind]
    rw [h.entryIn]
    cases endsInSlash p with
    | true => exact .error .isDirectory
    | false =>
        cases t'.entryIn l name with
        | error f => exact .error f
        | ok child =>
            dsimp only
            rw [h.isDirectoryAt]
            cases t'.isDirectoryAt child with
            | true => exact .error .isDirectory
            | false => exact .ok (h.set child (.file bytes))

theorem makeAbove (h : Alike t t') (p : Path) : SameAttempt (t.makeAbove p) (t'.makeAbove p) := by
  rw [Tree.makeAbove, Tree.makeAbove]
  cases p.parent? with
  | none => exact ⟨rfl, h⟩
  | some above => exact h.makeDirectoriesFuel _ above

/-- A write has the same result in trees that are alike, and leaves trees that are alike. -/
theorem write (h : Alike t t') (p : Path) (bytes : ByteArray) :
    SameAttempt (t.write p bytes) (t'.write p bytes) := by
  rw [write_eq, write_eq]
  have hmade := h.makeAbove p
  generalize t.makeAbove p = r₁, t'.makeAbove p = r₁' at hmade
  obtain ⟨made, t₁⟩ := r₁
  obtain ⟨made', t₁'⟩ := r₁'
  obtain ⟨rfl : made = made', habove : Alike t₁ t₁'⟩ := hmade
  cases made with
  | error f => exact ⟨rfl, habove⟩
  | ok u =>
      have hfile := habove.writeFile p bytes
      rw [writeBehind, writeBehind]
      generalize t₁.writeFile p bytes = r, t₁'.writeFile p bytes = r' at hfile
      cases hfile with
      | ok h => exact ⟨rfl, h⟩
      | error f => exact ⟨rfl, habove⟩

end Alike

end Scaffold.Files.Tree
