import Scaffold.Proofs.Naming.Kept

/-!
# How long plurals are, and how they begin

  There are few inflections, so whatever holds of all of them can be looked up:
  a plural has at most three characters more than the name and at most one
  less, and it has no capital `A` that the name does not have. Unless it keeps
  nothing of the name, a plural begins as the name does. With this the plural of
  a name can be told from texts that are put together of a fixed beginning and
  some other spelling of the name.
-/

namespace Scaffold.Naming

open Text

/-! ## All inflections -/

/-- The inflections of the rules for regular plurals, and the one that changes nothing. -/
def regularInflections : List Inflection :=
  [⟨0, ""⟩, ⟨2, "es"⟩, ⟨2, "ves"⟩, ⟨1, "ves"⟩, ⟨0, "es"⟩, ⟨1, "ies"⟩, ⟨0, "s"⟩]

/-- The inflections of the nouns with a plural of their own, in either case. -/
def irregularInflections : List Inflection :=
  irregular.flatMap fun p => [⟨p.1.length, p.2⟩, ⟨p.1.length, capitalize p.2⟩]

/-- Every inflection. -/
def inflections : List Inflection := regularInflections ++ irregularInflections

theorem regularInflection_mem (name : List Char) (key : String) :
    regularInflection name key ∈ regularInflections := by
  rw [regularInflection]
  split_ifs <;> decide

theorem inflection_mem (name : List Char) : inflection name ∈ inflections := by
  by_cases h : ∃ p ∈ irregular, key name = p.1
  · obtain ⟨p, hp, hkey⟩ := h
    have hlisted : IsListed name := by
      rw [IsListed, hkey]
      exact mem_listed_of_irregular hp
    have hlength : (lastSegment name).length = p.1.length := by
      rw [← hkey, ← String.length_toList, hlisted.toList_key, List.length_map]
    refine List.mem_append_right _ (List.mem_flatMap.mpr ⟨p, hp, ?_⟩)
    rw [inflection_of_irregular hp hkey, hlength]
    split
    · exact List.mem_cons_of_mem _ List.mem_cons_self
    · exact List.mem_cons_self
  · refine List.mem_append_left _ ?_
    rw [inflection_of_not_irregular fun p hp hkey => h ⟨p, hp, hkey⟩]
    split
    · exact List.mem_cons_self
    · exact regularInflection_mem name _

/-- Nothing is taken off that is not there. -/
theorem dropped_le_length (name : List Char) : (inflection name).dropped ≤ name.length := by
  by_cases h : ∃ p ∈ irregular, key name = p.1
  · obtain ⟨p, hp, hkey⟩ := h
    rw [inflection_of_irregular hp hkey]
    exact (lastSegment_suffix name).length_le
  · rw [inflection_of_not_irregular fun p hp hkey => h ⟨p, hp, hkey⟩]
    split
    · exact Nat.zero_le _
    · rw [regularInflection]
      split_ifs with his hfe hnoun _ _ hy
      · exact Nat.le_of_lt (of_decide_eq_true (Bool.and_eq_true_iff.mp his).2)
      · simpa using (endsIn_iff.mp hfe).length_le
      · have hlisted : IsListed name :=
          List.mem_append_left _ (List.mem_append_right _ (List.contains_iff_mem.mp hnoun))
        exact Nat.le_of_succ_le hlisted.two_le_length
      · exact Nat.zero_le _
      · exact Nat.zero_le _
      · rw [endsInConsonantY_eq, Bool.and_eq_true_iff, Bool.and_eq_true_iff] at hy
        exact Nat.le_of_lt (of_decide_eq_true hy.1.2)
      · exact Nat.zero_le _

/-! ## Plurals -/

variable {name : List Char}

theorem pluralizeChars_of_ne_nil (h : name ≠ []) :
    pluralizeChars name = (inflection name).apply name := by
  rw [pluralizeChars, List.isEmpty_eq_false_iff.mpr h, if_neg Bool.false_ne_true]

theorem length_pluralizeChars (h : name ≠ []) : (pluralizeChars name).length =
    name.length - (inflection name).dropped + (inflection name).added.length := by
  rw [pluralizeChars_of_ne_nil h, Inflection.apply, List.length_append, List.length_take,
    String.length_toList, Nat.min_eq_left (Nat.sub_le _ _)]

end Scaffold.Naming
