import Scaffold.Proofs.Naming.Length

/-!
# Names that are their own plural

  A plural is empty only if the name is, and it is the name itself only if the
  name is empty or its last segment is a noun without a plural form. For every
  other inflection puts on more or fewer characters than it takes off, or puts on
  letters that differ in more than their case.
-/

namespace Scaffold.Naming

open Text

variable {name : List Char}

/-! ## Empty plurals -/

/-- Only what takes nothing off puts nothing on. -/
theorem inflections_added_ne : ∀ i ∈ inflections, i.added = "" → i.dropped = 0 := by
  decide

theorem pluralizeChars_eq_nil_iff (name : List Char) : pluralizeChars name = [] ↔ name = [] := by
  constructor
  · intro h
    by_contra hne
    rw [pluralizeChars_of_ne_nil hne, Inflection.apply, List.append_eq_nil_iff] at h
    have hadded := String.toList_eq_nil_iff.mp h.2
    have hdropped := inflections_added_ne _ (inflection_mem name) hadded
    rw [hdropped, Nat.sub_zero, List.take_length] at h
    exact hne h.1
  · rintro rfl
    rfl

/-! ## Unchanged names -/

/-- A plural of its own differs from the noun in more than the case of letters. -/
theorem irregular_changes : ∀ p ∈ irregular, ∀ plural ∈ [p.2, capitalize p.2],
    plural.toList.map Char.toLower ≠ p.1.toList := by
  decide

theorem apply_eq {front back : List Char} (h : name = front ++ back) (added : String) :
    (⟨back.length, added⟩ : Inflection).apply name = front ++ added.toList := by
  rw [Inflection.apply, h, List.length_append, Nat.add_sub_cancel, List.take_left]

theorem apply_nothing (name : List Char) : (⟨0, ""⟩ : Inflection).apply name = name := by
  rw [Inflection.apply, Nat.sub_zero, List.take_length]
  exact List.append_nil name

theorem pluralizeChars_ne_of_irregular {p : String × String} (hp : p ∈ irregular)
    (hkey : key name = p.1) (hne : name ≠ []) : pluralizeChars name ≠ name := by
  have hlisted : IsListed name := by
    rw [IsListed, hkey]
    exact mem_listed_of_irregular hp
  obtain ⟨plural, hplural, hinflection⟩ : ∃ plural ∈ [p.2, capitalize p.2],
      inflection name = ⟨(lastSegment name).length, plural⟩ := by
    refine ⟨_, ?_, inflection_of_irregular hp hkey⟩
    split
    · exact List.mem_cons_of_mem _ List.mem_cons_self
    · exact List.mem_cons_self
  obtain ⟨front, hname⟩ := lastSegment_suffix name
  intro hself
  rw [pluralizeChars_of_ne_nil hne, hinflection, apply_eq hname.symm] at hself
  -- what is put on would be the last segment itself
  have hsegment := List.append_cancel_left (hself.trans hname.symm)
  refine irregular_changes p hp plural hplural ?_
  rw [hsegment, ← hlisted.toList_key, hkey]

/-- Only -es in place of -is is as long as what it stands for. -/
theorem regularInflection_cases (name : List Char) (key' : String) :
    (regularInflection name key' = ⟨2, "es"⟩ ∧ endsIn "is" name = true) ∨
      (regularInflection name key').added.length ≠ (regularInflection name key').dropped := by
  rw [regularInflection]
  split_ifs with his
  · exact Or.inl ⟨rfl, (Bool.and_eq_true_iff.mp his).1⟩
  all_goals exact Or.inr (by decide)

theorem pluralizeChars_ne_of_regular
    (hregular : inflection name = regularInflection name (key name)) (hne : name ≠ []) :
    pluralizeChars name ≠ name := by
  intro hself
  rcases regularInflection_cases name (key name) with ⟨hes, his⟩ | hlength
  · -- the name would end both in -is and in -es
    have hes' : "es".toList <:+ name.map Char.toLower := by
      rw [← hself, pluralizeChars_of_ne_nil hne, hregular, hes, Inflection.apply, List.map_append]
      exact List.suffix_append _ _
    have hsame := List.suffix_of_suffix_length_le hes' (endsIn_iff.mp his) (Nat.le_refl 2)
    exact absurd hsame (by decide)
  · have hsame := congrArg List.length hself
    have hdropped := dropped_le_length name
    rw [length_pluralizeChars hne, hregular] at hsame
    rw [hregular] at hdropped
    omega

/-- The names that are their own plural. -/
theorem pluralizeChars_eq_self_iff (name : List Char) :
    pluralizeChars name = name ↔ name = [] ∨ key name ∈ uncountable := by
  by_cases hne : name = []
  · rw [hne]
    exact iff_of_true rfl (Or.inl rfl)
  rw [or_iff_right hne]
  by_cases hirregular : ∃ p ∈ irregular, key name = p.1
  · obtain ⟨p, hp, hkey⟩ := hirregular
    have hcountable : ∀ p ∈ irregular, p.1 ∉ uncountable := by decide
    rw [hkey]
    exact iff_of_false (pluralizeChars_ne_of_irregular hp hkey hne) (hcountable p hp)
  have hinflection := inflection_of_not_irregular fun p hp hkey => hirregular ⟨p, hp, hkey⟩
  rw [← List.contains_iff_mem]
  cases huncountable : uncountable.contains (key name) with
  | true =>
      rw [if_pos huncountable] at hinflection
      refine iff_of_true ?_ rfl
      rw [pluralizeChars_of_ne_nil hne, hinflection, apply_nothing]
  | false =>
      rw [if_neg (Bool.eq_false_iff.mp huncountable)] at hinflection
      exact iff_of_false (pluralizeChars_ne_of_regular hinflection hne) Bool.false_ne_true

end Scaffold.Naming
