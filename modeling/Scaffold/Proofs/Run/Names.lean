import Scaffold.Proofs.Run.Sites

/-!
# Names of files

  What the name of a file is made of: the name of an entity with its first
  character in lower case, or the stamp of a migration and some text behind it.
  Entities have names of their own if their files can be told apart in every
  directory, from each other and from the files of the batch. As long as no
  part of a name holds a slash this is a matter of the names alone, because
  plurals, which go into the names of migrations, bring in no slash either.
-/

namespace Scaffold

/-! ## Names of their own -/

/-- Every entity has a name of its own, as the name of its files: none begins at the root, no two
    lead to the same place in a directory, and none leads to a file of the batch. -/
structure OwnNames (es : List Entity) : Prop where
  relative : ∀ e ∈ es, e.nameLc.toList.head? ≠ some '/'
  distinct : (es.map fun e => Path.steps ⟨e.file⟩).Nodup
  apart : ∀ e ∈ es, Path.steps ⟨e.file⟩ ≠ ["index.js"] ∧ Path.steps ⟨e.file⟩ ≠ ["commons.js"]

/-- Nothing that goes into the name of a file leads to another directory. -/
structure NoSlashes (es : List Entity) : Prop where
  names : ∀ e ∈ es, '/' ∉ e.nameLc.toList
  keys : ∀ e ∈ es, ∀ a ∈ e.associations.implicit.members,
    '/' ∉ a.targetKey.toList ∧ '/' ∉ a.keysIn.toList

theorem isName_js {front : String} (h : '/' ∉ front.toList) : Path.IsName (front ++ ".js") := by
  have hlength : 3 ≤ (front ++ ".js").length := by
    rw [String.length_append]
    exact Nat.le_add_left 3 front.length
  have hshort : ∀ short : String, short.length < 3 → front ++ ".js" ≠ short := by
    rintro short hshort rfl
    omega
  refine ⟨?_, hshort "" (by decide), hshort "." (by decide), hshort ".." (by decide)⟩
  rw [String.toList_append, List.mem_append]
  rintro (hmem | hmem)
  · exact h hmem
  · revert hmem
    decide

theorem head_js_ne_slash {front : String} (h : front.toList.head? ≠ some '/') :
    (front ++ ".js").toList.head? ≠ some '/' := by
  rw [String.toList_append]
  cases hcs : front.toList with
  | nil => decide
  | cons c cs =>
      rw [hcs] at h
      exact h

theorem isName_index : Path.IsName "index.js" := ⟨by decide, by decide, by decide, by decide⟩

theorem isName_commons : Path.IsName "commons.js" := ⟨by decide, by decide, by decide, by decide⟩

theorem js_injective : Function.Injective (fun name : String => name ++ ".js") :=
  fun _ _ heq => (String.append_left_inj _).mp heq

/-- Names of files are distinct as the names of entities are. -/
theorem nodup_file_iff (es : List Entity) :
    ((es.map Entity.file).Nodup ∧ ∀ e ∈ es, e.file ≠ "index.js" ∧ e.file ≠ "commons.js") ↔
      (es.map Entity.nameLc).Nodup ∧ ∀ e ∈ es, e.nameLc ≠ "index" ∧ e.nameLc ≠ "commons" := by
  have hnames : (es.map Entity.file).Nodup ↔ (es.map Entity.nameLc).Nodup := by
    rw [← List.nodup_map_iff (l := es.map Entity.nameLc) js_injective, List.map_map]
    rfl
  rw [hnames]
  refine and_congr_right fun _ => forall₂_congr fun e _ => ?_
  exact and_congr (js_injective.ne_iff (x := e.nameLc) (y := "index"))
    (js_injective.ne_iff (x := e.nameLc) (y := "commons"))

/-- Without slashes, names are compared as they are. -/
theorem NoSlashes.ownNames_iff {es : List Entity} (h : NoSlashes es) :
    OwnNames es ↔
      (es.map Entity.nameLc).Nodup ∧ ∀ e ∈ es, e.nameLc ≠ "index" ∧ e.nameLc ≠ "commons" := by
  have hsteps : ∀ e ∈ es, Path.steps ⟨e.file⟩ = [e.file] := fun e he =>
    (isName_js (h.names e he)).steps_eq
  have hsingle : Function.Injective (fun file : String => [file]) := fun _ _ heq =>
    List.singleton_inj.mp heq
  have hdistinct : (es.map fun e => Path.steps ⟨e.file⟩).Nodup ↔ (es.map Entity.file).Nodup := by
    rw [List.map_congr_left hsteps, ← List.nodup_map_iff hsingle, List.map_map]
    rfl
  rw [← nodup_file_iff, ← hdistinct]
  constructor
  · intro hown
    refine ⟨hown.distinct, fun e he => ?_⟩
    obtain ⟨hindex, hcommons⟩ := hown.apart e he
    rw [hsteps e he] at hindex hcommons
    exact ⟨hsingle.ne_iff.mp hindex, hsingle.ne_iff.mp hcommons⟩
  · rintro ⟨hnodup, hapart⟩
    refine ⟨fun e he hslash => h.names e he (List.mem_of_mem_head? hslash), hnodup, fun e he => ?_⟩
    obtain ⟨hindex, hcommons⟩ := hapart e he
    rw [hsteps e he]
    exact ⟨hsingle.ne_iff.mpr hindex, hsingle.ne_iff.mpr hcommons⟩

/-! ## Migrations -/

/-- No ending of a plural holds a slash. -/
theorem Naming.slash_notMem_added (name : List Char) : '/' ∉ (inflection name).added.toList := by
  have hirregular : ∀ p ∈ irregular, '/' ∉ p.2.toList ∧ '/' ∉ (capitalize p.2).toList := by decide
  rw [inflection]
  split
  · decide
  · split
    · rename_i plural hplural
      obtain ⟨key, hmem⟩ : ∃ key, (key, plural) ∈ irregular := by
        obtain ⟨l₁, l₂, hirr, -⟩ := List.lookup_eq_some_iff.mp hplural
        exact ⟨_, hirr ▸ List.mem_append_right l₁ List.mem_cons_self⟩
      split
      · exact (hirregular _ hmem).2
      · exact (hirregular _ hmem).1
    · -- what is left are the six endings of the rules
      rw [regularInflection]
      split_ifs <;> decide

theorem Naming.slash_notMem_pluralize {name : String} (h : '/' ∉ name.toList) :
    '/' ∉ (pluralize name).toList := by
  rw [toList_pluralize, pluralizeChars]
  split
  · exact List.not_mem_nil
  · rw [Inflection.apply, List.mem_append]
    rintro (hmem | hmem)
    · exact h (List.mem_of_mem_take hmem)
    · exact slash_notMem_added _ hmem

/-- What names a migration behind its stamp has no slash. -/
theorem NoSlashes.discriminator {settings : Settings} {es : List Entity} (h : NoSlashes es)
    {d : String} (hd : Place.stamped d ∈ (Request.all settings es).map Request.place) :
    '/' ∉ d.toList := by
  obtain ⟨r, hr, hplace⟩ := List.mem_map.mp hd
  rcases Request.stamped_cases settings hr hplace with ⟨e, he, rfl, -⟩ | hr
  · cases hplace
    exact h.names e he
  · obtain ⟨-, owner, howner, -, a, ha, rfl | rfl⟩ := Request.mem_deferred settings hr
    · cases hplace
      have htable : '/' ∉ owner.table.toList :=
        Naming.slash_notMem_pluralize (h.names owner howner)
      have hkey := (h.keys owner howner a ha).1
      simpa [toString] using ⟨hkey, htable⟩
    · cases hplace
      have hkeys := (h.keys owner howner a ha).2
      simpa [toString] using hkeys

theorem Moment.eq_of_dash {t u : Moment} {rest rest' : String}
    (h : t.stamp ++ "-" ++ rest = u.stamp ++ "-" ++ rest') : t = u := by
  have hchars := congrArg String.toList h
  simp only [String.toList_append, List.append_assoc] at hchars
  exact eq_of_stamp_append (rfl : ('-').isDigit = false) (rfl : ('-').isDigit = false) hchars

theorem Moment.file_eq (t : Moment) (d : String) : t.file d = t.stamp ++ "-" ++ (d ++ ".js") := by
  simp only [file, String.append_assoc]

/-- The stamp can be told from the first piece of a migration's name. -/
theorem Moment.eq_of_steps {t u : Moment} {d d' : String}
    (h : Path.steps ⟨t.file d⟩ = Path.steps ⟨u.file d'⟩) : t = u := by
  have hfirst : ∀ (v : Moment) (d : String), ∃ piece rest,
      Path.steps ⟨v.file d⟩ = (v.stamp ++ "-" ++ piece) :: rest := by
    intro v d
    rw [file_eq]
    refine Path.steps_append ?_ ?_ (d ++ ".js")
    · rw [String.toList_append, List.mem_append]
      rintro (hmem | hmem)
      · exact v.slash_notMem_stamp hmem
      · revert hmem
        decide
    · rw [String.length_append, ← String.length_toList]
      have hpos := List.length_pos_iff.mpr v.stamp_ne_nil
      exact Nat.succ_lt_succ hpos
  obtain ⟨piece, rest, ht⟩ := hfirst t d
  obtain ⟨piece', rest', hu⟩ := hfirst u d'
  rw [ht, hu] at h
  exact eq_of_dash (List.cons.inj h).1

end Scaffold
