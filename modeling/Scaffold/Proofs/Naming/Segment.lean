import Mathlib
import Scaffold.Naming.Plural
import Scaffold.Proofs.Text.AsciiCase

/-!
# The last segment of a name

  The last segment begins at the last underscore or capital. So a text with such
  a break settles the last segment of every name that ends in it, and a text
  without one only lengthens the last segment of what stands before it. A
  segment is a listed noun only if all its characters are in ASCII, because no
  character beyond ASCII has a lower case that comes up in a listed noun.
-/

namespace Scaffold.Naming

open Text

/-! ## Breaks -/

/-- A segment begins at the character, or behind it. -/
def isBreak (c : Char) : Bool := c == '_' || isUpper c

/-- The last segment, read from the end. -/
def segmentFromEnd (cs : List Char) : List Char := throughUpper (cs.takeWhile (· != '_'))

theorem lastSegment_eq (name : List Char) :
    lastSegment name = (segmentFromEnd name.reverse).reverse := rfl

theorem segmentFromEnd_cons (c : Char) (cs : List Char) :
    segmentFromEnd (c :: cs) =
      if c = '_' then [] else if isUpper c then [c] else c :: segmentFromEnd cs := by
  rw [segmentFromEnd, List.takeWhile_cons]
  -- an underscore is left out, a capital is the first character of the segment
  by_cases hc : c = '_'
  · simp [hc, throughUpper]
  · simp only [bne_iff_ne, ne_eq, hc, not_false_eq_true, if_true, if_false, throughUpper]
    rfl

theorem segmentFromEnd_append (cs ds : List Char) :
    segmentFromEnd (cs ++ ds) =
      if cs.any isBreak then segmentFromEnd cs else cs ++ segmentFromEnd ds := by
  induction cs with
  | nil => rfl
  | cons c cs ih =>
      rw [List.cons_append, segmentFromEnd_cons, segmentFromEnd_cons, ih, List.any_cons, isBreak]
      by_cases hc : c = '_'
      · simp [hc]
      · cases hupper : isUpper c with
        | true => simp [hc]
        | false =>
            cases cs.any isBreak with
            | true => simp [hc]
            | false => simp [hc]

theorem segmentFromEnd_prefix (cs : List Char) : segmentFromEnd cs <+: cs := by
  induction cs with
  | nil => exact List.prefix_rfl
  | cons c cs ih =>
      rw [segmentFromEnd_cons]
      split
      · exact List.nil_prefix
      · split
        · exact List.cons_prefix_cons.mpr ⟨rfl, List.nil_prefix⟩
        · exact List.cons_prefix_cons.mpr ⟨rfl, ih⟩

theorem lastSegment_suffix (name : List Char) : lastSegment name <:+ name := by
  rw [lastSegment_eq, ← List.reverse_prefix, List.reverse_reverse]
  exact segmentFromEnd_prefix name.reverse

/-- A break settles the last segment. -/
theorem lastSegment_append_of_break {cs : List Char} (h : cs.any isBreak = true)
    (front : List Char) : lastSegment (front ++ cs) = lastSegment cs := by
  rw [lastSegment_eq, lastSegment_eq, List.reverse_append, segmentFromEnd_append,
    List.any_reverse, if_pos h]

/-- Without a break the last segment goes on. -/
theorem lastSegment_append {cs : List Char} (h : cs.any isBreak = false) (front : List Char) :
    lastSegment (front ++ cs) = lastSegment front ++ cs := by
  rw [lastSegment_eq, lastSegment_eq, List.reverse_append, segmentFromEnd_append,
    List.any_reverse, h, if_neg Bool.false_ne_true, List.reverse_append, List.reverse_reverse]

theorem mem_lastSegment_concat {d : Char} (h : d ≠ '_') (front : List Char) :
    d ∈ lastSegment (front ++ [d]) := by
  rw [lastSegment_eq, List.mem_reverse, List.reverse_append, List.reverse_singleton,
    List.singleton_append, segmentFromEnd_cons, if_neg h]
  split <;> exact List.mem_cons_self

theorem lastSegment_singleton {c : Char} (h : c ≠ '_') : lastSegment [c] = [c] := by
  rw [lastSegment_eq, List.reverse_singleton, segmentFromEnd_cons, if_neg h]
  split <;> rfl

/-! ## Lower case of segments -/

theorem lowerFrom_ascii {cs : List Char} (h : ∀ c ∈ cs, isAscii c = true) (before : List Char) :
    lowerFrom before cs = cs.map Char.toLower := by
  induction cs generalizing before with
  | nil => rfl
  | cons c cs ih =>
      have hc := h c List.mem_cons_self
      have hsigma : c ≠ 'Σ' := by
        rintro rfl
        exact absurd hc (by decide)
      rw [lowerFrom, if_neg hsigma, lowerOf_ascii hc,
        ih fun d hd => h d (List.mem_cons_of_mem c hd)]
      rfl

/-- The lower case of a text that is not in ASCII holds a character beyond ASCII, or a `k`. -/
theorem exists_mem_lowerFrom {cs : List Char} {c : Char} (hc : c ∈ cs) (h : isAscii c = false)
    (before : List Char) : ∃ d ∈ lowerFrom before cs, isAscii d = false ∨ d = 'k' := by
  induction cs generalizing before with
  | nil => exact nomatch hc
  | cons b cs ih =>
      rw [lowerFrom]
      rcases List.mem_cons.mp hc with rfl | hmem
      · by_cases hsigma : c = 'Σ'
        · rw [if_pos hsigma]
          split
          · exact ⟨'ς', List.mem_append_left _ (List.mem_singleton_self _), Or.inl (by decide)⟩
          · exact ⟨'σ', List.mem_append_left _ (List.mem_singleton_self _), Or.inl (by decide)⟩
        · obtain ⟨d, hd, hor⟩ := exists_mem_lowerOf h
          rw [if_neg hsigma]
          exact ⟨d, List.mem_append_left _ hd, hor⟩
      · obtain ⟨d, hd, hor⟩ := ih hmem (b :: before)
        exact ⟨d, List.mem_append_right _ hd, hor⟩

/-! ## Listed nouns -/

/-- The nouns that are recognised on the last segment. -/
def listed : List String := uncountable ++ irregular.map Prod.fst ++ nounsInF ++ nounsInO

/-- The last segment of a name in lower case. -/
def key (name : List Char) : String := String.ofList (lowerChars (lastSegment name))

/-- The last segment of a name is a listed noun. -/
def IsListed (name : List Char) : Prop := key name ∈ listed

/-- A listed noun has two letters or more, all of them small letters of ASCII other than `k`. -/
theorem letters_of_listed {word : String} (h : word ∈ listed) : 2 ≤ word.toList.length ∧
    ∀ c ∈ word.toList, isAscii c = true ∧ c ≠ 'k' ∧ c.isLower = true := by
  have hall : (listed.all fun w => decide (2 ≤ w.toList.length) &&
      w.toList.all fun c => isAscii c && c != 'k' && c.isLower) = true := by decide +kernel
  simpa [and_assoc] using List.all_eq_true.mp hall word h

theorem IsListed.isAscii {name : List Char} (h : IsListed name) :
    ∀ c ∈ lastSegment name, isAscii c = true := by
  intro c hc
  by_contra hascii
  obtain ⟨d, hd, hor⟩ := exists_mem_lowerFrom hc (Bool.eq_false_of_not_eq_true hascii) []
  obtain ⟨hdascii, hk, -⟩ := (letters_of_listed h).2 d (by rw [key, String.toList_ofList]; exact hd)
  rcases hor with hfalse | rfl
  · exact nomatch hdascii.symm.trans hfalse
  · exact hk rfl

theorem IsListed.toList_key {name : List Char} (h : IsListed name) :
    (key name).toList = (lastSegment name).map Char.toLower := by
  rw [key, String.toList_ofList]
  exact lowerFrom_ascii h.isAscii []

theorem IsListed.two_le_length {name : List Char} (h : IsListed name) : 2 ≤ name.length := by
  have htwo := (letters_of_listed h).1
  rw [h.toList_key, List.length_map] at htwo
  exact htwo.trans (lastSegment_suffix name).length_le

theorem mem_listed_of_irregular {p : String × String} (h : p ∈ irregular) : p.1 ∈ listed :=
  List.mem_append_left _ (List.mem_append_left _ (List.mem_append_right _ (List.mem_map_of_mem h)))

theorem not_isListed_of_mem {name : List Char} {c : Char} (hc : c ∈ lastSegment name)
    (h : isAscii c = false) : ¬ IsListed name :=
  fun hlisted => nomatch (hlisted.isAscii c hc).symm.trans h

end Scaffold.Naming
