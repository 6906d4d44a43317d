import Scaffold.Proofs.Naming.Length

/-!
# Plurals of names with underscores

  Of the words between the underscores of a name only the last one is put into
  the plural. An underscore is a break and stands in no ending, so what is in
  front of it has no part in the choice of an inflection; and no inflection takes
  off more than the last word, so it is kept. What is left is the underscore
  itself: it makes the name longer than the last word, and that matters where
  this word is no more than an ending, or empty.
-/

namespace Scaffold.Naming

open Text

/-! ## In front of the underscore -/

/-- What stands in front of an underscore has no part in the inflection. -/
theorem inflection_append_underscore (front word : List Char) :
    inflection (front ++ '_' :: word) = inflection ('_' :: word) := by
  have hbreak : ('_' :: word).any isBreak = true := rfl
  exact inflection_congr (lastSegment_append_of_break hbreak front)
    (regularInflection_append_cons outside_underscore outside_underscore front [] word)

theorem pluralizeChars_append_underscore (front word : List Char) :
    pluralizeChars (front ++ '_' :: word) = front ++ pluralizeChars ('_' :: word) := by
  have hne : front ++ '_' :: word ≠ [] := List.append_ne_nil_of_right_ne_nil _ (List.cons_ne_nil _ _)
  rw [pluralizeChars_of_ne_nil hne, pluralizeChars_of_ne_nil (List.cons_ne_nil _ _),
    inflection_append_underscore]
  exact apply_append (dropped_le_length ('_' :: word)) front

/-! ## The underscore -/

theorem lastSegment_underscore_cons (word : List Char) :
    lastSegment ('_' :: word) = lastSegment word := by
  cases hbreak : word.any isBreak with
  | true => exact lastSegment_append_of_break hbreak ['_']
  | false =>
      -- the last segment begins with the word
      have hbehind := lastSegment_append hbreak ['_']
      have halone := lastSegment_append hbreak []
      exact hbehind.trans halone.symm

/-- In a word that is more than one of the endings that count only then, an underscore in front
    makes no difference. -/
theorem inflection_underscore_cons {word : List Char}
    (h : ∀ e ∈ innerEndings, word.map Char.toLower ≠ e.toList) :
    inflection ('_' :: word) = inflection word := by
  have hends : ∀ e ∈ endings, endsIn e ('_' :: word) = endsIn e word := by
    intro e he
    exact endsIn_append_cons (outside_underscore e he) [] word
  refine inflection_congr (lastSegment_underscore_cons word) (regularInflection_congr hends ?_)
  intro e he hend
  rw [hends e (innerEndings_subset he), endsIn_iff] at hend
  have hle := hend.length_le
  have hne : e.length ≠ word.length := by
    intro heq
    refine h e he (hend.eq_of_length ?_).symm
    rw [String.length_toList, heq, List.length_map]
  rw [String.length_toList, List.length_map] at hle
  rw [List.length_cons]
  omega

/-- The words whose plural differs behind an underscore, in small letters. -/
def boundWords : List String := "" :: innerEndings

theorem pluralizeChars_underscore_ne :
    ∀ e ∈ boundWords, ∀ word ∈ spellings e.toList,
      pluralizeChars ('_' :: word) ≠ '_' :: pluralizeChars word := by
  decide +kernel

theorem pluralizeChars_underscore_cons_iff (word : List Char) :
    pluralizeChars ('_' :: word) = '_' :: pluralizeChars word ↔
      ∀ e ∈ boundWords, word.map Char.toLower ≠ e.toList := by
  constructor
  · intro heq e he hword
    exact pluralizeChars_underscore_ne e he word (hword ▸ mem_spellings word) heq
  · intro h
    obtain ⟨hempty, hinner⟩ := List.forall_mem_cons.mp h
    have hne : word ≠ [] := by
      rintro rfl
      exact hempty rfl
    rw [pluralizeChars_of_ne_nil (List.cons_ne_nil _ _), pluralizeChars_of_ne_nil hne,
      inflection_underscore_cons hinner]
    exact apply_append (dropped_le_length word) ['_']

/-! ## All names -/

/-- **Plurals behind an underscore.** Whatever the texts before and behind it are, the name in front
    of an underscore stays and the word behind it is put into the plural on its own, unless that
    word is empty, `is` or `y`, in any letter case of ASCII. Behind an underscore these three give
    `s`, `es` and `ies`, and on their own nothing, `ises` and `ys`. -/
theorem pluralize_append_underscore_iff (front word : String) :
    pluralize (front ++ "_" ++ word) = front ++ "_" ++ pluralize word ↔
      word.toLower ∉ ["", "is", "y"] := by
  have hchars : (front ++ "_" ++ word).toList = front.toList ++ '_' :: word.toList := by
    simp
  have hlower : word.toLower.toList = word.toList.map Char.toLower := String.toList_map
  have hword : word.toLower ∉ boundWords ↔
      ∀ e ∈ boundWords, word.toList.map Char.toLower ≠ e.toList := by
    constructor
    · intro h e he heq
      have hsame : word.toLower = e := String.toList_inj.mp (hlower.trans heq)
      exact h (hsame ▸ he)
    · intro h hmem
      exact h word.toLower hmem hlower.symm
  show _ ↔ word.toLower ∉ boundWords
  rw [hword, ← pluralizeChars_underscore_cons_iff, ← String.toList_inj, toList_pluralize, hchars,
    pluralizeChars_append_underscore]
  simp

end Scaffold.Naming
