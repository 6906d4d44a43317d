import Scaffold.Proofs.Naming.Segment

/-!
# Endings of names

  The rules for regular plurals ask a name for its endings, and whether there is
  more of it than the ending. No ending has more than two letters, and all are in
  ASCII. So two characters settle the plural of a longer name, one last
  character does if it closes no ending of two letters, and characters that are
  in no ending, as those beyond ASCII, are as good as one another.
-/

namespace Scaffold.Naming

open Text

/-! ## Endings -/

/-- The endings that the rules ask for, and those that a vowel before -y gives. -/
def endings : List String :=
  ["is", "fe", "s", "x", "z", "ch", "sh", "y", "ay", "ey", "iy", "oy", "uy"]

/-- The endings that count only if they are not all of the name. -/
def innerEndings : List String := ["is", "y"]

theorem innerEndings_subset : innerEndings ⊆ endings := by decide

theorem endsIn_iff {ending : String} {name : List Char} :
    endsIn ending name = true ↔ ending.toList <:+ name.map Char.toLower :=
  List.isSuffixOf_iff_suffix

/-- Read from the end, the name begins with the ending. -/
theorem endsIn_eq (ending : String) (name : List Char) :
    endsIn ending name = ending.toList.reverse.isPrefixOf (name.reverse.map Char.toLower) := by
  rw [endsIn, List.isSuffixOf, List.map_reverse]

/-- A final -y is behind no vowel exactly if the name has one of no such ending. -/
theorem endsInConsonantY_eq (name : List Char) :
    endsInConsonantY name = (endsIn "y" name && decide (1 < name.length) &&
      !(["ay", "ey", "iy", "oy", "uy"].any (endsIn · name))) := by
  have hlength : name.length = (name.reverse.map Char.toLower).length := by simp
  rw [endsInConsonantY, hlength]
  simp only [endsIn_eq]
  generalize name.reverse.map Char.toLower = cs
  match cs with
  | [] => rfl
  | [c] => by_cases hc : c = 'y' <;> simp [hc, List.isPrefixOf]
  | c :: d :: cs =>
      by_cases hc : c = 'y'
      · rw [Bool.eq_iff_iff]
        simp [hc, List.isPrefixOf, isVowel, @eq_comm Char _ d]
      · simp [hc, Ne.symm hc, List.isPrefixOf]

/-- The regular plural depends on the endings of a name, and on whether two of them are all of
    it. -/
theorem regularInflection_congr {name name' : List Char}
    (hends : ∀ e ∈ endings, endsIn e name = endsIn e name')
    (hlength : ∀ e ∈ innerEndings, endsIn e name = true →
      (e.length < name.length ↔ e.length < name'.length)) (key : String) :
    regularInflection name key = regularInflection name' key := by
  have hproper : ∀ e ∈ innerEndings, (endsIn e name && decide (e.length < name.length)) =
      (endsIn e name' && decide (e.length < name'.length)) := by
    intro e he
    rw [← hends e (innerEndings_subset he)]
    cases h : endsIn e name with
    | false => rfl
    | true => simp [hlength e he h]
  have hany : ∀ es : List String, es ⊆ endings →
      es.any (endsIn · name) = es.any (endsIn · name') := fun es hes => by
    rw [Bool.eq_iff_iff, List.any_eq_true, List.any_eq_true]
    exact exists_congr fun e => and_congr_right fun he => by rw [hends e (hes he)]
  have hy : endsInConsonantY name = endsInConsonantY name' := by
    rw [endsInConsonantY_eq, endsInConsonantY_eq, hany _ (by decide)]
    exact congrArg (· && _) (hproper "y" (by decide))
  have his : (endsIn "is" name && decide (2 < name.length)) =
      (endsIn "is" name' && decide (2 < name'.length)) := hproper "is" (by decide)
  rw [regularInflection, regularInflection, his, hends "fe" (by decide), hany _ (by decide), hy]

/-! ## Names with one ending -/

theorem letters_of_endings : ∀ e ∈ endings, e.length ≤ 2 ∧ ∀ d ∈ e.toList, isAscii d = true := by
  have hall : (endings.all fun e => decide (e.length ≤ 2) && e.toList.all isAscii) = true := by
    decide
  simpa using hall

theorem endsIn_append {ending : String} {cs : List Char} (h : ending.length ≤ cs.length)
    (front : List Char) : endsIn ending (front ++ cs) = endsIn ending cs := by
  rw [Bool.eq_iff_iff, endsIn_iff, endsIn_iff, List.map_append]
  constructor
  · intro hsuffix
    refine List.suffix_of_suffix_length_le hsuffix (List.suffix_append _ _) ?_
    rw [List.length_map, String.length_toList]
    exact h
  · intro hsuffix
    exact hsuffix.trans (List.suffix_append _ _)

/-- An ending does not reach over a character that is not in it. -/
theorem endsIn_append_cons {ending : String} {x : Char} (hx : x.toLower ∉ ending.toList)
    (front cs : List Char) : endsIn ending (front ++ x :: cs) = endsIn ending cs := by
  by_cases hlength : ending.length ≤ cs.length
  · rw [List.append_cons, endsIn_append hlength]
  · rw [Bool.eq_iff_iff, endsIn_iff, endsIn_iff]
    have hlong : cs.length < ending.toList.length := by
      rw [String.length_toList]
      omega
    constructor
    · intro hsuffix
      rw [List.map_append] at hsuffix
      have hover := List.suffix_of_suffix_length_le (List.suffix_append _ _) hsuffix
        (by rw [List.length_map, List.length_cons]; exact hlong)
      exact absurd (hover.subset List.mem_cons_self) hx
    · intro hsuffix
      have hle := hsuffix.length_le
      rw [List.length_map] at hle
      omega

/-- A character that is in no ending, in either case. -/
def Outside (x : Char) : Prop := ∀ e ∈ endings, x.toLower ∉ e.toList

theorem outside_of_not_isAscii {x : Char} (h : isAscii x = false) : Outside x := by
  intro e he hmem
  rw [toLower_of_not_isAscii h] at hmem
  exact nomatch ((letters_of_endings e he).2 x hmem).symm.trans h

theorem outside_underscore : Outside '_' := by
  show ∀ e ∈ endings, '_' ∉ e.toList
  decide

variable {name name' front front' cs : List Char} {b c x y : Char}

theorem regularInflection_of_map_eq (h : name.map Char.toLower = name'.map Char.toLower)
    (key : String) : regularInflection name key = regularInflection name' key := by
  have hlength : name.length = name'.length := by
    simpa only [List.length_map] using congrArg List.length h
  refine regularInflection_congr (fun e _ => ?_) (fun e _ _ => ?_) key
  · rw [endsIn, endsIn, h]
  · rw [hlength]

/-- Two characters settle the ending of a longer name. -/
theorem regularInflection_append (h : 2 ≤ cs.length) (hf : front ≠ []) (hf' : front' ≠ [])
    (key : String) :
    regularInflection (front ++ cs) key = regularInflection (front' ++ cs) key := by
  have hpos := List.length_pos_iff.mpr hf
  have hpos' := List.length_pos_iff.mpr hf'
  refine regularInflection_congr (fun e he => ?_) (fun e he _ => ?_) key
  · have hshort := (letters_of_endings e he).1.trans h
    rw [endsIn_append hshort, endsIn_append hshort]
  · have hshort := (letters_of_endings e (innerEndings_subset he)).1
    rw [List.length_append, List.length_append]
    exact iff_of_true (by omega) (by omega)

/-- One character that is in no ending is as good as another. -/
theorem regularInflection_append_cons (hx : Outside x) (hy : Outside y)
    (front front' cs : List Char) (key : String) :
    regularInflection (front ++ x :: cs) key = regularInflection (front' ++ y :: cs) key := by
  refine regularInflection_congr (fun e he => ?_) (fun e he hends => ?_) key
  · rw [endsIn_append_cons (hx e he), endsIn_append_cons (hy e he)]
  · rw [endsIn_append_cons (hx e (innerEndings_subset he))] at hends
    have hle := (endsIn_iff.mp hends).length_le
    rw [List.length_map, String.length_toList] at hle
    simp only [List.length_append, List.length_cons]
    exact iff_of_true (by omega) (by omega)

/-- The last letters of the endings with two letters. -/
def closing : List Char := ['h', 's', 'e', 'y']

theorem closing_of_endings : ∀ e ∈ endings,
    e.length ≤ 1 ∨ ∃ d ∈ closing, ∃ ds, e.toList.reverse = d :: ds := by
  have hall : (endings.all fun e => decide (e.length ≤ 1) ||
      closing.any fun d => e.toList.reverse.head? == some d) = true := by decide
  intro e he
  rcases Bool.or_eq_true_iff.mp (List.all_eq_true.mp hall e he) with h | h
  · exact Or.inl (of_decide_eq_true h)
  · obtain ⟨d, hd, hhead⟩ := List.any_eq_true.mp h
    exact Or.inr ⟨d, hd, List.head?_eq_some_iff.mp (beq_iff_eq.mp hhead)⟩

/-- A last character that is none of these settles the ending of a longer name. -/
theorem regularInflection_concat (hb : b.toLower ∉ closing) (hf : front ≠ []) (hf' : front' ≠ [])
    (key : String) :
    regularInflection (front ++ [b]) key = regularInflection (front' ++ [b]) key := by
  have hpos := List.length_pos_iff.mpr hf
  have hpos' := List.length_pos_iff.mpr hf'
  -- neither name has an ending of two letters
  have hnot : ∀ {e : String} {d : Char} {ds : List Char}, d ∈ closing →
      e.toList.reverse = d :: ds → ∀ front : List Char, endsIn e (front ++ [b]) = false := by
    intro e d ds hd hreverse front
    have hne : d ≠ b.toLower := fun heq => hb (heq ▸ hd)
    rw [endsIn_eq, hreverse]
    simp [List.isPrefixOf, hne]
  refine regularInflection_congr (fun e he => ?_) (fun e he hends => ?_) key
  · rcases closing_of_endings e he with hshort | ⟨d, hd, ds, hreverse⟩
    · rw [endsIn_append hshort, endsIn_append hshort]
    · rw [hnot hd hreverse, hnot hd hreverse]
  · rcases closing_of_endings e (innerEndings_subset he) with hshort | ⟨d, hd, ds, hreverse⟩
    · rw [List.length_append, List.length_append]
      exact iff_of_true (by simp; omega) (by simp; omega)
    · exact nomatch (hnot hd hreverse front).symm.trans hends

/-- A regular plural keeps a part of the name, unless the name is one of `fe`. -/
theorem regularInflection_dropped_lt {key : String} (hne : name ≠ [])
    (hfe : endsIn "fe" name = true → 2 < name.length) (hkey : key ∈ nounsInF → 2 ≤ name.length) :
    (regularInflection name key).dropped < name.length := by
  have hpos := List.length_pos_iff.mpr hne
  rw [regularInflection]
  split_ifs with his hends hnoun _ _ hy
  · exact of_decide_eq_true (Bool.and_eq_true_iff.mp his).2
  · exact hfe hends
  · exact hkey (List.contains_iff_mem.mp hnoun)
  · exact hpos
  · exact hpos
  · rw [endsInConsonantY_eq, Bool.and_eq_true_iff, Bool.and_eq_true_iff] at hy
    exact of_decide_eq_true hy.1.2
  · exact hpos

end Scaffold.Naming
