import Mathlib.Data.List.Nodup
import Scaffold.Definition.Loading
import Scaffold.Proofs.Files.Alike
import Scaffold.Proofs.Files.Changes
import Scaffold.Proofs.Files.Entries

/-!
# Loading the definitions of a directory

  The definition files of a directory are told by what stands in it: the files
  with the right extension, if their paths are not too long. They come in the
  order of their names, so it does not matter in which order the directory
  lists them, and what comes of each is settled by its own path and bytes.
-/

namespace Scaffold

open Files (Tree Location IsEntryName)

/-! ## Sorting -/

namespace Loaded

theorem sorted_perm (names : List String) : (sorted names).Perm names := List.mergeSort_perm _ _

theorem pairwise_sorted (names : List String) : (sorted names).Pairwise (· ≤ ·) := by
  have htrans : ∀ a b c : String, decide (a ≤ b) = true → decide (b ≤ c) = true →
      decide (a ≤ c) = true := by
    simp only [decide_eq_true_eq]
    exact fun _ _ _ => String.le_trans
  have htotal : ∀ a b : String, (decide (a ≤ b) || decide (b ≤ a)) = true := by
    simp only [Bool.or_eq_true, decide_eq_true_eq]
    exact String.le_total
  exact (List.pairwise_mergeSort htrans htotal names).imp of_decide_eq_true

/-- Different names stand in strict order. -/
theorem pairwise_lt_sorted {names : List String} (h : names.Nodup) :
    (sorted names).Pairwise (· < ·) := by
  have hnodup : (sorted names).Nodup := (sorted_perm names).nodup_iff.mpr h
  refine ((pairwise_sorted names).and hnodup).imp fun {a b} hab => ?_
  rw [← String.not_le]
  exact fun hba => hab.2 (String.le_antisymm hab.1 hba)

/-- Names are sorted alike in whatever order they come. -/
theorem sorted_eq_of_perm {names names' : List String} (h : names.Perm names') :
    sorted names = sorted names' :=
  List.Perm.eq_of_pairwise (fun _ _ _ _ => String.le_antisymm) (pairwise_sorted names)
    (pairwise_sorted names') (((sorted_perm names).trans h).trans (sorted_perm names').symm)

end Loaded

namespace Definition

/-! ## Order -/

/-- **Listing order does not matter**: trees that are alike have the same definitions in every
    directory, or fail for the same cause. -/
theorem loadAll_alike {t t' : Tree} (h : t.Alike t') (dir : Path) :
    loadAll t dir = loadAll t' dir := by
  have hread : t.read = t'.read := funext h.read
  rw [loadAll, loadAll, Tree.list, Tree.list, h.find]
  cases t'.find dir with
  | error f => rfl
  | ok l =>
      dsimp only [bind, Except.bind]
      rw [h.isDirectoryAt, h.isFile, hread]
      cases t'.isDirectoryAt l with
      | false => rfl
      | true =>
          have hfiles : Loaded.filesAmong t'.isFile dir (t.namesAt l) =
              Loaded.filesAmong t'.isFile dir (t'.namesAt l) := by
            rw [Loaded.filesAmong, Loaded.filesAmong,
              Loaded.sorted_eq_of_perm (h.perm_namesAt l)]
          exact congrArg (fun ps => Except.ok (ps.map fun p => Loaded.ofBytes p (t'.read p))) hfiles

/-! ## Completeness -/

/-- A file that is loaded from a directory at `l`, with the path `dir`. -/
structure IsDefinitionFile (t : Tree) (dir : Path) (l : Location) (name : String)
    (bytes : ByteArray) : Prop where
  file : t.node? (name :: l) = some (.file bytes)
  /-- The extension stands behind a dot that is not the first character. -/
  extension : ∃ stem, stem ≠ "" ∧ name = stem ++ "." ++ Loaded.extension
  /-- The path can be followed. -/
  short : (dir.join name).text.utf8ByteSize < Tree.pathLimit

variable {t : Tree} {dir : Path} {l : Location}

theorem IsDefinitionFile.mem_namesAt {name : String} {bytes : ByteArray}
    (h : IsDefinitionFile t dir l name bytes) : name ∈ t.namesAt l := by
  rw [Tree.mem_namesAt, h.file]
  rfl

/-- The path of a definition file leads to its bytes. -/
theorem IsDefinitionFile.read {name : String} {bytes : ByteArray}
    (h : IsDefinitionFile t dir l name bytes) (hnames : ∀ name ∈ t.namesAt l, IsEntryName name)
    (hfind : t.find dir = .ok l) (hdir : t.isDirectoryAt l = true) :
    t.read (dir.join name) = .ok bytes := by
  have hentry := Tree.find_join (hnames name h.mem_namesAt) hfind hdir
    (Tree.mem_namesAt.mp h.mem_namesAt)
  rw [if_pos h.short] at hentry
  exact Tree.read_eq_ok_iff.mpr ⟨_, hentry, h.file⟩

/-- The name and the bytes of a definition file. -/
def fileUnder? (t : Tree) (dir : Path) (l : Location) (name : String) :
    Option (String × ByteArray) :=
  if (dir.join name).extension? = some Loaded.extension ∧
      (dir.join name).text.utf8ByteSize < Tree.pathLimit then
    (t.bytes? (name :: l)).map fun bytes => (name, bytes)
  else none

theorem bytes?_eq_some_iff {bytes : ByteArray} :
    t.bytes? l = some bytes ↔ t.node? l = some (.file bytes) := by
  rw [Tree.bytes?]
  rcases t.node? l with - | ⟨bytes'⟩ | -
  · simp only [reduceCtorEq]
  · rw [Option.some.injEq, Option.some.injEq, Files.Node.file.injEq]
  · simp only [Option.some.injEq, reduceCtorEq]

theorem fileUnder?_eq_some_iff {name : String} {file : String × ByteArray} :
    fileUnder? t dir l name = some file ↔
      ((dir.join name).extension? = some Loaded.extension ∧
        (dir.join name).text.utf8ByteSize < Tree.pathLimit) ∧
      file.1 = name ∧ t.node? (name :: l) = some (.file file.2) := by
  rw [fileUnder?, Option.ite_none_right_eq_some, Option.map_eq_some_iff, ← bytes?_eq_some_iff]
  refine and_congr_right fun _ => ?_
  constructor
  · rintro ⟨bytes, hbytes, rfl⟩
    exact ⟨rfl, hbytes⟩
  · rintro ⟨rfl, hbytes⟩
    exact ⟨file.2, hbytes, rfl⟩

theorem isDefinitionFile_iff {name : String} (h : IsEntryName name) {bytes : ByteArray} :
    IsDefinitionFile t dir l name bytes ↔ fileUnder? t dir l name = some (name, bytes) := by
  have hext := @Path.extension?_join_iff name dir h.toIsName Loaded.extension (by decide)
  rw [fileUnder?_eq_some_iff, hext]
  exact ⟨fun ⟨hfile, hstem, hshort⟩ => ⟨⟨hstem, hshort⟩, rfl, hfile⟩,
    fun ⟨⟨hstem, hshort⟩, _, hfile⟩ => ⟨hfile, hstem, hshort⟩⟩

/-- The definition files of a directory, with their bytes. -/
def filesIn (t : Tree) (dir : Path) (l : Location) : List (String × ByteArray) :=
  (Loaded.sorted (t.namesAt l)).filterMap (fileUnder? t dir l)

/-- Of the names in a directory those of definition files are taken, and their bytes are read. -/
theorem loaded_eq (hfind : t.find dir = .ok l) (hdir : t.isDirectoryAt l = true)
    (hnames : ∀ name ∈ t.namesAt l, IsEntryName name) {name : String}
    (hthere : name ∈ t.namesAt l) :
    (Option.guard (fun p => t.isFile p && p.extension? == some Loaded.extension)
        (dir.join name)).map (fun p => Loaded.ofBytes p (t.read p)) =
      (fileUnder? t dir l name).map fun file => .ofBytes (dir.join file.1) (.ok file.2) := by
  have hentry := hnames name hthere
  have hfile := Tree.isFile_join_iff hentry hfind hdir (Tree.mem_namesAt.mp hthere)
  cases hunder : fileUnder? t dir l name with
  | none =>
      have hnone : ¬ (t.isFile (dir.join name) &&
          (dir.join name).extension? == some Loaded.extension) = true := by
        rw [Bool.and_eq_true, hfile, beq_iff_eq]
        rintro ⟨⟨hshort, bytes, hnode⟩, hext⟩
        have hsome : fileUnder? t dir l name = some (name, bytes) :=
          fileUnder?_eq_some_iff.mpr ⟨⟨hext, hshort⟩, rfl, hnode⟩
        exact nomatch hunder.symm.trans hsome
      rw [Option.guard, if_neg hnone]
      rfl
  | some file =>
      obtain ⟨⟨hext, hshort⟩, hname, hnode⟩ := fileUnder?_eq_some_iff.mp hunder
      obtain ⟨_, bytes⟩ := file
      obtain rfl : _ = name := hname
      have hread := ((isDefinitionFile_iff hentry).mpr hunder).read hnames hfind hdir
      rw [Option.guard, hfile.mpr ⟨hshort, bytes, hnode⟩, hext, Bool.true_and, beq_self_eq_true,
        if_pos rfl, Option.map_some, hread]
      rfl

/-- What is loaded from a directory is what its definition files give. -/
theorem loadAll_eq (hfind : t.find dir = .ok l) (hdir : t.isDirectoryAt l = true)
    (hnames : ∀ name ∈ t.namesAt l, IsEntryName name) :
    loadAll t dir = .ok ((filesIn t dir l).map fun file =>
      .ofBytes (dir.join file.1) (.ok file.2)) := by
  have hlist : t.list dir = .ok (t.namesAt l) :=
    bind_eq_ok_iff.mpr ⟨l, hfind, if_pos hdir⟩
  have hfiles : (Loaded.filesAmong t.isFile dir (t.namesAt l)).map
      (fun p => Loaded.ofBytes p (t.read p)) =
        (filesIn t dir l).map fun file => .ofBytes (dir.join file.1) (.ok file.2) := by
    rw [Loaded.filesAmong, ← List.filterMap_eq_filter, List.map_filterMap, List.filterMap_map,
      filesIn, List.map_filterMap]
    refine List.filterMap_congr fun name hname => ?_
    have hthere := (Loaded.sorted_perm _).mem_iff.mp hname
    exact loaded_eq hfind hdir hnames hthere
  rw [loadAll, hlist]
  exact congrArg Except.ok hfiles

theorem mem_filesIn (hnames : ∀ name ∈ t.namesAt l, IsEntryName name) {name : String}
    {bytes : ByteArray} :
    (name, bytes) ∈ filesIn t dir l ↔ IsDefinitionFile t dir l name bytes := by
  rw [filesIn, List.mem_filterMap]
  constructor
  · rintro ⟨name', hname', hfile⟩
    have hentry := hnames name' ((Loaded.sorted_perm _).mem_iff.mp hname')
    obtain rfl : name = name' := (fileUnder?_eq_some_iff.mp hfile).2.1
    exact (isDefinitionFile_iff hentry).mpr hfile
  · intro h
    exact ⟨name, (Loaded.sorted_perm _).mem_iff.mpr h.mem_namesAt,
      (isDefinitionFile_iff (hnames name h.mem_namesAt)).mp h⟩

/-- Definition files come in the order of their names, and none comes twice. -/
theorem pairwise_filesIn (t : Tree) (dir : Path) (l : Location) :
    (filesIn t dir l).Pairwise (·.1 < ·.1) := by
  rw [filesIn, List.pairwise_filterMap]
  refine (Loaded.pairwise_lt_sorted (Tree.nodup_namesAt t l)).imp fun hlt file hfile file' hfile' => ?_
  rw [(fileUnder?_eq_some_iff.mp hfile).2.1, (fileUnder?_eq_some_iff.mp hfile').2.1]
  exact hlt

end Definition

end Scaffold
