import Scaffold.Proofs.Files.Following

/-!
# Entries of directories

  The path of an entry is the path of its directory with the name behind it. It
  leads to the entry whenever the path of the directory leads to the directory,
  with one exception: it may have become too long. What the extension of such a
  path is can be told from the name alone.
-/

namespace Scaffold

/-! ## Names and extensions -/

namespace Path

/-- A list with a dot in it is cut at its last dot. -/
theorem eq_append_dot {cs : List Char} (h : (cs.reverse.takeWhile (· != '.')).length < cs.length) :
    ∃ stem, cs = stem ++ '.' :: (cs.reverse.takeWhile (· != '.')).reverse := by
  have hsplit := @List.takeWhile_append_dropWhile _ (· != '.') cs.reverse
  have hhead := List.head?_dropWhile_not (· != '.') cs.reverse
  cases hrest : cs.reverse.dropWhile (· != '.') with
  | nil =>
      rw [hrest, List.append_nil] at hsplit
      rw [hsplit, List.length_reverse] at h
      exact absurd h (Nat.lt_irrefl _)
  | cons d ds =>
      rw [hrest] at hsplit hhead
      obtain rfl : d = '.' := bne_eq_false_iff_eq.mp hhead
      refine ⟨ds.reverse, List.reverse_injective ?_⟩
      rw [List.reverse_append, List.reverse_cons, List.reverse_reverse, List.reverse_reverse,
        List.append_assoc]
      exact hsplit.symm

/-- What stands behind the dot is not cut further. -/
theorem takeWhile_reverse_append {stem ext : List Char} (hext : '.' ∉ ext) :
    (stem ++ '.' :: ext).reverse.takeWhile (· != '.') = ext.reverse := by
  rw [List.reverse_append, List.reverse_cons, List.append_assoc, List.takeWhile_append_of_pos]
  · exact List.append_nil _
  · rintro c hc
    rw [bne_iff_ne]
    rintro rfl
    exact hext (List.mem_reverse.mp hc)

/-- What stands behind the last dot, when something stands before the dot. -/
theorem takeWhile_reverse_iff {cs ext : List Char} (hext : '.' ∉ ext) :
    ((cs.reverse.takeWhile (· != '.')).length + 1 < cs.length ∧
      (cs.reverse.takeWhile (· != '.')).reverse = ext) ↔
      ∃ stem, stem ≠ [] ∧ cs = stem ++ '.' :: ext := by
  constructor
  · rintro ⟨hlength, rfl⟩
    obtain ⟨stem, hcs⟩ := eq_append_dot (Nat.lt_of_succ_lt hlength)
    refine ⟨stem, ?_, hcs⟩
    rintro rfl
    have hsame := congrArg List.length hcs
    rw [List.nil_append, List.length_cons, List.length_reverse] at hsame
    omega
  · rintro ⟨stem, hstem, rfl⟩
    have hpos := List.length_pos_iff.mpr hstem
    rw [takeWhile_reverse_append hext, List.reverse_reverse, List.length_reverse,
      List.length_append, List.length_cons]
    exact ⟨by omega, rfl⟩

variable {name : String}

/-- The path of an entry has this extension if the name has it behind a dot that is not its first
    character. -/
theorem extension?_join_iff (p : Path) (h : IsName name) {ext : String} (hext : '.' ∉ ext.toList) :
    (p.join name).extension? = some ext ↔ ∃ stem, stem ≠ "" ∧ name = stem ++ "." ++ ext := by
  have hbase : base (p.join name).text = name := by
    rw [base_join, base_of_no_slash h.no_slash]
  have hname : (p.join name).fileName? = some name := by
    have hfile := @fileName?_eq_base (p.join name) (by rw [hbase]; exact h)
    rw [hfile, hbase]
  have hiff := @takeWhile_reverse_iff name.toList ext.toList hext
  rw [String.length_toList] at hiff
  rw [extension?, hname, Option.bind_eq_bind, Option.bind_some]
  dsimp only
  rw [Option.ite_none_right_eq_some, Option.some.injEq, ← String.toList_inj, String.toList_ofList,
    hiff]
  constructor
  · rintro ⟨stem, hstem, hlist⟩
    refine ⟨String.ofList stem, fun hempty => hstem (String.ofList_eq_empty_iff.mp hempty), ?_⟩
    rw [← String.toList_inj, hlist, String.toList_append, String.toList_append,
      String.toList_ofList, List.append_assoc]
    rfl
  · rintro ⟨stem, hstem, rfl⟩
    refine ⟨stem.toList, fun hnil => hstem (String.toList_eq_nil_iff.mp hnil), ?_⟩
    rw [String.toList_append, String.toList_append, List.append_assoc]
    rfl

/-- A slash at most stands between a path and a name that is joined to it. -/
theorem toList_join_name (p : Path) (h : IsName name) :
    ∃ sep, (sep = [] ∨ sep = ['/']) ∧
      (p.join name).text.toList = p.text.toList ++ sep ++ name.toList := by
  rw [join, if_neg (by simpa using h.head_ne_slash)]
  split
  · exact ⟨[], Or.inl rfl, by rw [String.toList_append, List.append_nil]⟩
  · exact ⟨['/'], Or.inr rfl, by rw [String.toList_append, String.toList_append]; rfl⟩

theorem utf8ByteSize_le_join (p : Path) (h : IsName name) :
    p.text.utf8ByteSize + name.utf8ByteSize ≤ (p.join name).text.utf8ByteSize := by
  rw [join, if_neg (by simpa using h.head_ne_slash)]
  split
  · exact Nat.le_of_eq String.utf8ByteSize_append.symm
  · simp only [String.utf8ByteSize_append]
    omega

end Path

namespace Files

/-- A name that an entry of a directory can have. -/
structure IsEntryName (name : String) : Prop extends Path.IsName name where
  no_nul : '\x00' ∉ name.toList
  short : name.utf8ByteSize ≤ Tree.nameLimit

namespace Tree

variable {t : Tree} {dir : Path} {l : Location} {name : String}

/-! ## Following the path of an entry -/

theorem nul_notMem_join (h : IsEntryName name) (hdir : '\x00' ∉ dir.text.toList) :
    '\x00' ∉ (dir.join name).text.toList := by
  obtain ⟨sep, hsep, hlist⟩ := Path.toList_join_name dir h.toIsName
  rw [hlist, List.mem_append, List.mem_append]
  rintro ((hmem | hmem) | hmem)
  · exact hdir hmem
  · rcases hsep with rfl | rfl <;> simp at hmem
  · exact h.no_nul hmem

/-- The name is one more piece, whether or not the path of the directory ends in a slash. -/
theorem filter_pieces_join (h : Path.IsName name) (hdir : dir.text ≠ "") :
    (dir.join name).pieces.filter (!·.isEmpty) = dir.pieces.filter (!·.isEmpty) ++ [name] := by
  obtain ⟨front, hfront, -, hpieces⟩ := Path.pieces_join h.head_ne_slash hdir
  have hname : [name].filter (!·.isEmpty) = [name] :=
    List.filter_cons_of_pos (by simpa using h.not_empty)
  rw [hfront, h.pieces_eq, List.filter_append, hname]
  rcases hpieces with hpieces | hpieces
  · rw [hpieces]
  · rw [hpieces, List.filter_append]
    simp

theorem start_join (h : IsEntryName name) {pieces : List String}
    (hdir : t.start dir = .ok (l, pieces)) :
    t.start (dir.join name) = if (dir.join name).text.utf8ByteSize < pathLimit then
      .ok (l, pieces ++ [name]) else .error .nameTooLong := by
  obtain ⟨rfl, rfl⟩ := start_eq_ok hdir
  rw [start] at hdir ⊢
  split at hdir
  · cases hdir
  · rename_i hnul
    split at hdir
    · cases hdir
    · rename_i hempty
      rw [List.contains_iff_mem] at hnul
      have hnul' : ¬ (dir.join name).text.toList.contains '\x00' = true := by
        rw [List.contains_iff_mem]
        exact nul_notMem_join h hnul
      have hempty' : ¬ (dir.join name).text.isEmpty = true := by
        simpa using Path.join_name_ne_empty dir h.toIsName
      rw [if_neg hnul', if_neg hempty', Path.isAbsolute_join_name dir h.toIsName,
        filter_pieces_join h.toIsName (by simpa using hempty)]
      by_cases hlimit : (dir.join name).text.utf8ByteSize < pathLimit
      · rw [if_pos hlimit, if_neg (Nat.not_le.mpr hlimit)]
      · rw [if_neg hlimit, if_pos (Nat.not_lt.mp hlimit)]

theorem endsInSlash_join (h : Path.IsName name) : endsInSlash (dir.join name) = false := by
  obtain ⟨sep, -, hlist⟩ := Path.toList_join_name dir h
  have hne : name.toList ≠ [] := fun hnil => h.not_empty (String.toList_eq_nil_iff.mp hnil)
  rw [endsInSlash, hlist, List.getLast?_append, List.getLast?_eq_some_getLast hne, Option.some_or]
  refine beq_eq_false_iff_ne.mpr fun hlast => h.no_slash ?_
  rw [← Option.some.inj hlast]
  exact List.getLast_mem hne

theorem step_name (h : IsEntryName name) (hdir : t.isDirectoryAt l = true)
    (hthere : (t.node? (name :: l)).isSome = true) : t.step l name = .ok (name :: l) := by
  have hdots : ¬ (name = "." || name = "..") = true := by simp [h.not_here, h.not_above]
  have hshort : ¬ nameLimit < name.utf8ByteSize := Nat.not_lt.mpr h.short
  rw [step, if_neg hdots, entryIn, hdir, Bool.not_true, if_neg Bool.false_ne_true, if_neg hshort]
  exact if_pos hthere

/-- **Entries are found**, unless their paths are too long. -/
theorem find_join (h : IsEntryName name) (hfind : t.find dir = .ok l)
    (hdir : t.isDirectoryAt l = true) (hthere : (t.node? (name :: l)).isSome = true) :
    t.find (dir.join name) = if (dir.join name).text.utf8ByteSize < pathLimit then
      .ok (name :: l) else .error .nameTooLong := by
  obtain ⟨l₀, pieces, hstart, hfold, -⟩ := find_eq_ok_iff.mp hfind
  have hjoin := start_join h hstart
  split
  · rename_i hlimit
    rw [if_pos hlimit] at hjoin
    refine find_eq_ok_iff.mpr ⟨l₀, pieces ++ [name], hjoin, ?_, ?_⟩
    · rw [List.foldlM_append]
      refine bind_eq_ok_iff.mpr ⟨l, hfold, ?_⟩
      exact bind_eq_ok_iff.mpr ⟨name :: l, step_name h hdir hthere, rfl⟩
    · rw [endsInSlash_join h.toIsName]
      rfl
  · rename_i hlimit
    rw [if_neg hlimit] at hjoin
    rw [find, hjoin]
    rfl

/-- An entry is found as a file if it is a file, unless its path is too long. -/
theorem isFile_join_iff (h : IsEntryName name) (hfind : t.find dir = .ok l)
    (hdir : t.isDirectoryAt l = true) (hthere : (t.node? (name :: l)).isSome = true) :
    t.isFile (dir.join name) = true ↔ (dir.join name).text.utf8ByteSize < pathLimit ∧
      ∃ bytes, t.node? (name :: l) = some (.file bytes) := by
  have hentry := find_join h hfind hdir hthere
  rw [isFile]
  by_cases hlimit : (dir.join name).text.utf8ByteSize < pathLimit
  · rw [if_pos hlimit] at hentry
    rw [hentry, and_iff_right hlimit]
    dsimp only
    rw [isDirectoryAt]
    rcases hnode : t.node? (name :: l) with - | ⟨bytes⟩ | -
    · rw [hnode] at hthere
      cases hthere
    · exact iff_of_true rfl ⟨bytes, rfl⟩
    · refine iff_of_false Bool.false_ne_true ?_
      rintro ⟨bytes, hfile⟩
      cases hfile
  · rw [if_neg hlimit] at hentry
    rw [hentry]
    exact iff_of_false Bool.false_ne_true fun hboth => hlimit hboth.1

end Tree

end Files

end Scaffold
