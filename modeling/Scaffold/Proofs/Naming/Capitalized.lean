import Scaffold.Proofs.Naming.Endings

/-!
# Plurals of capitalized names

  To capitalize a name and to take its plural are done in either order with one
  result, but for a short list of names. The rule for a plural reads the last
  segment and the last two characters, and the first character has a part in
  these only in short names or in names of one segment. There its upper case is
  mostly read as the character itself is: in ASCII by the rules, which pass over
  case, and beyond ASCII because neither is read as anything. What is left are
  the characters whose upper case is spelled out in ASCII, and the names `fe`,
  of which the plural keeps no character.
-/

namespace Scaffold.Naming

open Text

/-! ## The names that clash -/

/-- The names for which it matters whether they are capitalized before or behind their plural. -/
def clashing : List String :=
  [(["f", "F"], ["e", "E"]),
    (["ß", "ſ"], ["", "h", "H", "pecies", "eries", "heep", "helf", "elf"]),
    (["ﬀ"], ["e", "E", "oot", "ish"]),
    (["ﬁ", "ﬃ"], ["s", "S", "y", "Y", "nformation", "ndex"]),
    (["ı"], ["y", "Y", "nformation", "ndex"]),
    (["ﬂ", "ﬄ"], ["eaf", "oaf"]),
    (["ﬅ", "ﬆ"], ["ooth", "omato", "hief"]),
    (["ŉ"], ["ews"])].flatMap fun (firsts, rests) =>
      firsts.flatMap fun first => rests.map (first ++ ·)

/-- The plural of the capitalized name is the capitalized plural. -/
def Commutes (name : List Char) : Prop :=
  pluralizeChars (capitalizeChars name) = capitalizeChars (pluralizeChars name)

instance (name : List Char) : Decidable (Commutes name) := inferInstanceAs (Decidable (_ = _))

theorem not_commutes_of_clashing : ∀ name ∈ clashing, ¬ Commutes name.toList := by
  have hall : (clashing.all fun name => !decide (Commutes name.toList)) = true := by
    decide +kernel
  simpa using hall

/-! ## Which plural -/

theorem inflection_of_irregular {name : List Char} {p : String × String} (hp : p ∈ irregular)
    (hkey : key name = p.1) :
    inflection name = ⟨(lastSegment name).length,
      if ((lastSegment name).head?.map isUpper).getD false then capitalize p.2 else p.2⟩ := by
  have hall : (irregular.all fun p =>
      !uncountable.contains p.1 && irregular.lookup p.1 == some p.2) = true := by decide
  obtain ⟨hcount, hlookup⟩ := Bool.and_eq_true_iff.mp (List.all_eq_true.mp hall p hp)
  rw [Bool.not_eq_eq_eq_not, Bool.not_true] at hcount
  have hkey : String.ofList (lowerChars (lastSegment name)) = p.1 := hkey
  rw [inflection]
  simp only [hkey, beq_iff_eq.mp hlookup, hcount, Bool.false_eq_true, if_false]

theorem inflection_of_not_irregular {name : List Char} (h : ∀ p ∈ irregular, key name ≠ p.1) :
    inflection name =
      if uncountable.contains (key name) then ⟨0, ""⟩ else regularInflection name (key name) := by
  have hlookup : irregular.lookup (key name) = none := by
    refine List.lookup_eq_none_iff.mpr fun p hp => ?_
    simpa using h p hp
  rw [inflection]
  simp only [show String.ofList (lowerChars (lastSegment name)) = key name from rfl, hlookup]

theorem inflection_of_not_isListed {name : List Char} (h : ¬ IsListed name) :
    inflection name = regularInflection name "" := by
  have hlisted : key name ∉ listed := h
  simp only [listed, List.mem_append, not_or] at hlisted
  obtain ⟨⟨⟨hcount, hirregular⟩, hf⟩, ho⟩ := hlisted
  rw [inflection_of_not_irregular fun p hp heq =>
    hirregular (heq ▸ List.mem_map_of_mem (f := Prod.fst) hp)]
  have hf' : ¬ nounsInF.contains (key name) = true := fun h => hf (List.contains_iff_mem.mp h)
  have ho' : ¬ nounsInO.contains (key name) = true := fun h => ho (List.contains_iff_mem.mp h)
  rw [if_neg fun h => hcount (List.contains_iff_mem.mp h), regularInflection, regularInflection,
    if_neg hf', if_neg ho']
  rfl

theorem inflection_congr {name name' : List Char} (hsegment : lastSegment name = lastSegment name')
    (hregular : ∀ key, regularInflection name key = regularInflection name' key) :
    inflection name = inflection name' := by
  rw [inflection, inflection, hsegment]
  simp only [hregular]

/-! ## Both orders -/

variable {c : Char} {cs : List Char}

theorem upperOf_ne_nil (c : Char) : upperOf c ≠ [] := by
  have hall : (spelledOut.all fun c => !(upperOf c).isEmpty) = true := by decide
  cases h : isAscii c with
  | true => rw [upperOf_ascii h]; exact List.cons_ne_nil _ _
  | false =>
      by_cases hc : c ∈ spelledOut
      · simpa using List.all_eq_true.mp hall c hc
      · obtain ⟨front, d, hupper, -⟩ := upperOf_ends h hc
        rw [hupper]
        exact List.append_ne_nil_of_right_ne_nil _ (List.cons_ne_nil _ _)

/-- What stands before all that an inflection takes off is kept. -/
theorem apply_append {i : Inflection} (h : i.dropped ≤ cs.length) (front : List Char) :
    i.apply (front ++ cs) = front ++ i.apply cs := by
  rw [Inflection.apply, Inflection.apply, List.length_append, Nat.add_sub_assoc h,
    List.take_length_add_append, List.append_assoc]

/-- An inflection that keeps the first character is passed over by capitalizing. -/
theorem capitalizeChars_apply {i : Inflection} (h : i.dropped ≤ cs.length) :
    capitalizeChars (i.apply (c :: cs)) = i.apply (upperOf c ++ cs) := by
  rw [apply_append h (upperOf c), ← List.singleton_append, apply_append h [c]]
  rfl

/-- A name and its capitalized form with one inflection, which keeps the first character. -/
theorem commutes_of_inflection_eq (h : inflection (upperOf c ++ cs) = inflection (c :: cs))
    (hkept : (inflection (c :: cs)).dropped ≤ cs.length) : Commutes (c :: cs) := by
  have hne : (upperOf c ++ cs).isEmpty = false := by
    rw [List.isEmpty_eq_false_iff]
    exact List.append_ne_nil_of_left_ne_nil (upperOf_ne_nil c) cs
  rw [Commutes, capitalizeChars, pluralizeChars, hne, pluralizeChars, h]
  exact (capitalizeChars_apply hkept).symm

/-- All of the name is one segment, a noun with a plural of its own. -/
def IsIrregular (name : List Char) : Prop :=
  lastSegment name = name ∧ ∃ p ∈ irregular, key name = p.1

/-- A plural keeps the first character, unless the name is as a whole a noun with a plural of its
    own or one of `fe`. -/
theorem dropped_le (hirregular : ¬ IsIrregular (c :: cs))
    (hfe : (c :: cs).map Char.toLower ≠ ['f', 'e']) :
    (inflection (c :: cs)).dropped ≤ cs.length := by
  by_cases h : ∃ p ∈ irregular, key (c :: cs) = p.1
  · obtain ⟨p, hp, hkey⟩ := h
    rw [inflection_of_irregular hp hkey]
    have hsuffix := lastSegment_suffix (c :: cs)
    refine Nat.le_of_lt_succ (lt_of_le_of_ne hsuffix.length_le fun heq => ?_)
    exact hirregular ⟨hsuffix.eq_of_length heq, p, hp, hkey⟩
  · rw [inflection_of_not_irregular fun p hp hkey => h ⟨p, hp, hkey⟩]
    split
    · exact Nat.zero_le _
    · refine Nat.le_of_lt_succ (regularInflection_dropped_lt (List.cons_ne_nil c cs) ?_ ?_)
      · intro hends
        have hsuffix := endsIn_iff.mp hends
        refine lt_of_le_of_ne (by simpa using hsuffix.length_le) fun hlength => hfe ?_
        exact (hsuffix.eq_of_length (by simpa using hlength)).symm
      · intro hnoun
        have hlisted : IsListed (c :: cs) := List.mem_append_left _ (List.mem_append_right _ hnoun)
        exact hlisted.two_le_length

/-! ## First characters in ASCII -/

theorem lastSegment_cons (hbreak : cs.any isBreak = false) (hc : c ≠ '_') :
    lastSegment (c :: cs) = c :: cs := by
  rw [← List.singleton_append, lastSegment_append hbreak, lastSegment_singleton hc]

theorem any_isBreak_of_lastSegment_eq (h : lastSegment (c :: cs) = c :: cs) :
    cs.any isBreak = false := by
  by_contra hbreak
  rw [← List.singleton_append, lastSegment_append_of_break (Bool.eq_true_of_not_eq_false hbreak)]
    at h
  have hle := (lastSegment_suffix cs).length_le
  rw [h, List.length_append, List.length_singleton] at hle
  omega

/-- As a whole, a noun with a plural of its own has that plural, with the case of its first
    character. -/
theorem pluralizeChars_of_irregular {p : String × String} (hp : p ∈ irregular)
    (hwhole : lastSegment (c :: cs) = c :: cs) (hkey : key (c :: cs) = p.1) :
    pluralizeChars (c :: cs) = (if isUpper c then capitalize p.2 else p.2).toList := by
  rw [pluralizeChars, inflection_of_irregular hp hkey, hwhole, Inflection.apply, Nat.sub_self,
    List.take_zero]
  rfl

theorem capitalizeChars_plural {p : String × String} (hp : p ∈ irregular) (upper : Bool) :
    capitalizeChars (if upper then capitalize p.2 else p.2).toList = (capitalize p.2).toList := by
  have hall : (irregular.all fun p => capitalizeChars (capitalize p.2).toList ==
      (capitalize p.2).toList) = true := by decide +kernel
  cases upper with
  | true => exact beq_iff_eq.mp (List.all_eq_true.mp hall p hp)
  | false => exact (toList_capitalize p.2).symm

theorem key_toUpper (hc : isAscii c = true) (hcs : ∀ d ∈ cs, isAscii d = true)
    (hwhole : lastSegment (c :: cs) = c :: cs)
    (hwhole' : lastSegment (c.toUpper :: cs) = c.toUpper :: cs) :
    key (c.toUpper :: cs) = key (c :: cs) := by
  rw [key, key, hwhole, hwhole', lowerChars, lowerChars,
    lowerFrom_ascii (List.forall_mem_cons.mpr ⟨isAscii_toUpper hc, hcs⟩),
    lowerFrom_ascii (List.forall_mem_cons.mpr ⟨hc, hcs⟩), List.map_cons, List.map_cons,
    Char.toLower_toUpper_eq_toLower]

theorem IsIrregular.commutes (hc : isAscii c = true) (h : IsIrregular (c :: cs)) :
    Commutes (c :: cs) := by
  obtain ⟨hwhole, p, hp, hkey⟩ := h
  have hword := mem_listed_of_irregular hp
  have hlisted : IsListed (c :: cs) := by rw [IsListed, hkey]; exact hword
  have hascii := hlisted.isAscii
  have hlower := hlisted.toList_key
  rw [hwhole] at hascii hlower
  have hfirst : c.toLower.isLower = true := by
    refine ((letters_of_listed hword).2 c.toLower ?_).2.2
    rw [← hkey, hlower]
    exact List.mem_cons_self
  have hupper := isUpper_toUpper hc hfirst
  -- the capital is a break, but at the front, so that the name is one segment still
  have hwhole' : lastSegment (c.toUpper :: cs) = c.toUpper :: cs := by
    refine lastSegment_cons (any_isBreak_of_lastSegment_eq hwhole) fun heq => ?_
    rw [heq] at hupper
    exact nomatch hupper
  have hkey' : key (c.toUpper :: cs) = p.1 :=
    (key_toUpper hc (List.forall_mem_cons.mp hascii).2 hwhole hwhole').trans hkey
  rw [Commutes, capitalizeChars, upperOf_ascii hc, List.singleton_append,
    pluralizeChars_of_irregular hp hwhole' hkey', if_pos hupper,
    pluralizeChars_of_irregular hp hwhole hkey, capitalizeChars_plural hp]

/-- In ASCII a first character takes its part in the plural whatever its case is. -/
theorem inflection_toUpper (hc : isAscii c = true) (h : ¬ IsIrregular (c :: cs)) :
    inflection (c.toUpper :: cs) = inflection (c :: cs) := by
  have hregular : ∀ key, regularInflection (c.toUpper :: cs) key = regularInflection (c :: cs) key :=
    regularInflection_of_map_eq (by
      rw [List.map_cons, List.map_cons, Char.toLower_toUpper_eq_toLower])
  cases hbreak : cs.any isBreak with
  | true =>
      -- the last segment begins behind the first character
      refine inflection_congr ?_ hregular
      rw [← List.singleton_append, lastSegment_append_of_break hbreak,
        ← List.singleton_append (l := cs) (x := c), lastSegment_append_of_break hbreak]
  | false =>
      by_cases hunderscore : c = '_'
      · rw [hunderscore]
        rfl
      · have hwhole := lastSegment_cons hbreak hunderscore
        have hwhole' := lastSegment_cons hbreak (toUpper_ne_underscore hc hunderscore)
        by_cases hall : ∀ d ∈ cs, isAscii d = true
        · have hkey := key_toUpper hc hall hwhole hwhole'
          have hnot : ∀ p ∈ irregular, key (c :: cs) ≠ p.1 :=
            fun p hp heq => h ⟨hwhole, p, hp, heq⟩
          rw [inflection_of_not_irregular hnot, inflection_of_not_irregular (hkey ▸ hnot), hkey,
            hregular]
        · -- the keys may differ here, by a sigma that is final behind a letter: none is listed
          obtain ⟨d, hd, hforeign⟩ : ∃ d ∈ cs, isAscii d = false := by simpa using hall
          have hlisted : ¬ IsListed (c :: cs) :=
            not_isListed_of_mem (by rw [hwhole]; exact List.mem_cons_of_mem c hd) hforeign
          have hlisted' : ¬ IsListed (c.toUpper :: cs) :=
            not_isListed_of_mem (by rw [hwhole']; exact List.mem_cons_of_mem _ hd) hforeign
          rw [inflection_of_not_isListed hlisted, inflection_of_not_isListed hlisted', hregular]

theorem commutes_of_isAscii (hc : isAscii c = true)
    (hfe : (c :: cs).map Char.toLower ≠ ['f', 'e']) : Commutes (c :: cs) := by
  by_cases h : IsIrregular (c :: cs)
  · exact h.commutes hc
  · refine commutes_of_inflection_eq ?_ (dropped_le h hfe)
    rw [upperOf_ascii hc, List.singleton_append]
    exact inflection_toUpper hc h

/-! ## First characters beyond ASCII -/

theorem ne_underscore_of_not_isAscii (h : isAscii c = false) : c ≠ '_' := by
  rintro rfl
  exact nomatch h

theorem not_isListed_cons (h : isAscii c = false) (hbreak : cs.any isBreak = false) :
    ¬ IsListed (c :: cs) := by
  refine not_isListed_of_mem (c := c) ?_ h
  rw [lastSegment_cons hbreak (ne_underscore_of_not_isAscii h)]
  exact List.mem_cons_self

theorem dropped_le_of_not_isAscii (h : isAscii c = false) (cs : List Char) :
    (inflection (c :: cs)).dropped ≤ cs.length := by
  refine dropped_le ?_ ?_
  · rintro ⟨hwhole, p, hp, hkey⟩
    refine not_isListed_cons h (any_isBreak_of_lastSegment_eq hwhole) ?_
    rw [IsListed, hkey]
    exact mem_listed_of_irregular hp
  · intro hfe
    rw [List.map_cons, toLower_of_not_isAscii h] at hfe
    rw [(List.cons.inj hfe).1] at h
    exact nomatch h

/-- If the rules for regular plurals make no difference, what is left are listed nouns. -/
theorem inflection_upperOf
    (hregular : ∀ key, regularInflection (upperOf c ++ cs) key = regularInflection (c :: cs) key)
    (hlisted : cs.any isBreak = false → ¬ IsListed (upperOf c ++ cs) ∧ ¬ IsListed (c :: cs)) :
    inflection (upperOf c ++ cs) = inflection (c :: cs) := by
  cases hbreak : cs.any isBreak with
  | true =>
      refine inflection_congr ?_ hregular
      rw [lastSegment_append_of_break hbreak, ← List.singleton_append,
        lastSegment_append_of_break hbreak]
  | false =>
      obtain ⟨hlisted, hlisted'⟩ := hlisted hbreak
      rw [inflection_of_not_isListed hlisted, inflection_of_not_isListed hlisted', hregular]

theorem commutes_of_not_spelledOut (h : isAscii c = false) (hc : c ∉ spelledOut) :
    Commutes (c :: cs) := by
  obtain ⟨front, d, hupper, hd⟩ := upperOf_ends h hc
  refine commutes_of_inflection_eq (inflection_upperOf ?_ fun hbreak => ⟨?_, ?_⟩)
    (dropped_le_of_not_isAscii h cs)
  · rw [hupper, List.append_assoc, List.singleton_append]
    exact regularInflection_append_cons (outside_of_not_isAscii hd) (outside_of_not_isAscii h)
      front [] cs
  · refine not_isListed_of_mem (c := d) ?_ hd
    rw [hupper, lastSegment_append hbreak]
    exact List.mem_append_left _ (mem_lastSegment_concat (ne_underscore_of_not_isAscii hd) front)
  · exact not_isListed_cons h hbreak

/-! ## First characters that are spelled out -/

/-- Behind a break a small letter comes only from itself. -/
theorem map_toLower_of_no_break (hbreak : cs.any isBreak = false)
    (h : ∀ d ∈ cs, isAscii d = true) : cs.map Char.toLower = cs := by
  have hall := @forall_ascii (p := fun c => isUpper c || c.toLower == c) (by decide)
  refine (List.map_congr_left fun d hd => ?_).trans (List.map_id cs)
  have hd' := hall (h d hd)
  have hno : isBreak d = false := by simpa using List.any_eq_false.mp hbreak d hd
  rw [(Bool.or_eq_false_iff.mp hno).2] at hd'
  exact beq_iff_eq.mp hd'

/-- Where a spelled out upper case begins a listed noun, the name clashes. -/
theorem clashing_of_isListed (hc : c ∈ spelledOut) (hbreak : cs.any isBreak = false)
    (h : IsListed (upperOf c ++ cs)) : String.ofList (c :: cs) ∈ clashing := by
  have hall : (spelledOut.all fun c => (lastSegment (upperOf c)).length == 1 &&
      listed.all fun word => word.toList.take 1 != (lastSegment (upperOf c)).map Char.toLower ||
        clashing.contains (String.ofList (c :: word.toList.drop 1))) = true := by decide +kernel
  -- the last segment is one letter of the upper case, and `cs`: so the noun tells what `cs` is
  obtain ⟨hone, hwords⟩ := Bool.and_eq_true_iff.mp (List.all_eq_true.mp hall c hc)
  have hone := beq_iff_eq.mp hone
  have hascii := h.isAscii
  have hword := h.toList_key
  rw [lastSegment_append hbreak] at hascii hword
  rw [List.map_append, map_toLower_of_no_break hbreak fun d hd =>
    hascii d (List.mem_append_right _ hd)] at hword
  have hclash := List.all_eq_true.mp hwords (key (upperOf c ++ cs)) h
  rw [hword, List.take_left' (by rw [List.length_map, hone]), List.drop_left' (by
    rw [List.length_map, hone]), bne_self_eq_false, Bool.false_or] at hclash
  exact List.contains_iff_mem.mp hclash

/-- What follows a spelled out character where that takes part in the ending: nothing, or one letter
    that closes an ending of two. -/
def shortRests : List (List Char) := [] :: closing.flatMap fun d => [[d], [d.toUpper]]

theorem mem_shortRests {b : Char} (h : b.toLower ∈ closing) : [b] ∈ shortRests := by
  refine List.mem_cons_of_mem _ (List.mem_flatMap.mpr ⟨b.toLower, h, ?_⟩)
  rcases eq_toLower_or b with heq | heq
  · exact List.mem_cons.mpr (Or.inl (List.singleton_inj.mpr heq))
  · exact List.mem_cons_of_mem _ (List.mem_singleton.mpr (List.singleton_inj.mpr heq))

theorem commutes_of_shortRests (hc : c ∈ spelledOut) (hcs : cs ∈ shortRests)
    (hclash : String.ofList (c :: cs) ∉ clashing) : Commutes (c :: cs) := by
  have hall : (spelledOut.all fun c => shortRests.all fun cs =>
      clashing.contains (String.ofList (c :: cs)) || decide (Commutes (c :: cs))) = true := by
    decide +kernel
  rcases Bool.or_eq_true_iff.mp (List.all_eq_true.mp (List.all_eq_true.mp hall c hc) cs hcs) with
    h | h
  · exact absurd (List.contains_iff_mem.mp h) hclash
  · exact of_decide_eq_true h

theorem not_isAscii_of_spelledOut (hc : c ∈ spelledOut) : isAscii c = false := by
  have hall : (spelledOut.all fun c => !isAscii c) = true := by decide
  simpa using List.all_eq_true.mp hall c hc

theorem commutes_of_spelledOut (hc : c ∈ spelledOut)
    (hclash : String.ofList (c :: cs) ∉ clashing) : Commutes (c :: cs) := by
  have h := not_isAscii_of_spelledOut hc
  by_cases hshort : cs ∈ shortRests
  · exact commutes_of_shortRests hc hshort hclash
  · refine commutes_of_inflection_eq (inflection_upperOf ?_ fun hbreak => ⟨?_, ?_⟩)
      (dropped_le_of_not_isAscii h cs)
    · -- the ending is settled behind the first character, as `cs` is none of the short rests
      match cs with
      | [] => exact absurd List.mem_cons_self hshort
      | [b] =>
          exact regularInflection_concat (fun hb => hshort (mem_shortRests hb)) (upperOf_ne_nil c)
            (List.cons_ne_nil c [])
      | b :: d :: cs =>
          have htwo : 2 ≤ (b :: d :: cs).length := Nat.le_add_left 2 cs.length
          exact regularInflection_append htwo (upperOf_ne_nil c) (List.cons_ne_nil c [])
    · exact fun hlisted => hclash (clashing_of_isListed hc hbreak hlisted)
    · exact not_isListed_cons h hbreak

/-! ## All names -/

/-- The names `fe`, in any letter case. -/
def spellingsOfFe : List String := ["fe", "fE", "Fe", "FE"]

theorem mem_spellingsOfFe_iff {name : List Char} :
    String.ofList name ∈ spellingsOfFe ↔ name.map Char.toLower = ['f', 'e'] := by
  constructor
  · intro hmem
    have hall : ∀ s ∈ spellingsOfFe, s.toList.map Char.toLower = ['f', 'e'] := by decide
    have hlower := hall _ hmem
    rwa [String.toList_ofList] at hlower
  · intro hlower
    have hall : ∀ cs ∈ spellings ['f', 'e'], String.ofList cs ∈ spellingsOfFe := by decide
    exact hall name (hlower ▸ mem_spellings name)

theorem clashing_of_spellingsOfFe : ∀ name ∈ spellingsOfFe, name ∈ clashing := by decide +kernel

theorem pluralize_capitalize_iff_commutes (name : String) :
    pluralize (capitalize name) = capitalize (pluralize name) ↔ Commutes name.toList := by
  rw [← String.toList_inj, toList_pluralize, toList_capitalize, toList_capitalize,
    toList_pluralize]
  rfl

/-- **Capitalized plurals.** The plural of the capitalized name is the capitalized plural, exactly
    for the names that do not clash. -/
theorem pluralize_capitalize_iff (name : String) :
    pluralize (capitalize name) = capitalize (pluralize name) ↔ name ∉ clashing := by
  rw [pluralize_capitalize_iff_commutes]
  refine ⟨fun h hclash => not_commutes_of_clashing name hclash h, fun hclash => ?_⟩
  rw [← String.ofList_toList (s := name)] at hclash
  generalize name.toList = chars at hclash
  cases chars with
  | nil => rfl
  | cons c cs =>
      by_cases hfe : (c :: cs).map Char.toLower = ['f', 'e']
      · exact absurd (clashing_of_spellingsOfFe _ (mem_spellingsOfFe_iff.mpr hfe)) hclash
      · cases hc : isAscii c with
        | true => exact commutes_of_isAscii hc hfe
        | false =>
            by_cases hspelled : c ∈ spelledOut
            · exact commutes_of_spelledOut hspelled hclash
            · exact commutes_of_not_spelledOut hc hspelled

/-- **Capitalized plurals in ASCII.** For a name that begins in ASCII, and for the empty one, the
    plural of the capitalized name is the capitalized plural, whatever follows the first character,
    unless the name is one of `fe`. Of these the plural keeps no character. -/
theorem pluralize_capitalize_iff_of_isAscii {name : String}
    (h : ∀ c ∈ name.toList.head?, isAscii c = true) :
    pluralize (capitalize name) = capitalize (pluralize name) ↔ name ∉ spellingsOfFe := by
  rw [pluralize_capitalize_iff_commutes, ← String.ofList_toList (s := name), String.toList_ofList]
  generalize name.toList = chars at h
  cases chars with
  | nil => exact iff_of_true rfl (by decide)
  | cons c cs =>
      rw [mem_spellingsOfFe_iff]
      refine ⟨fun hcommutes hfe => ?_, commutes_of_isAscii (h c rfl)⟩
      have hclash := clashing_of_spellingsOfFe _ (mem_spellingsOfFe_iff.mpr hfe)
      refine not_commutes_of_clashing _ hclash ?_
      rwa [String.toList_ofList]

/-- Irregular plurals come as well as others, and of `fée` only the first character is in ASCII. The
    name `fE` is one of the four. -/
theorem pluralize_capitalize_iff_of_isAscii_sample :
    (∀ name ∈ ["", "mouse", "salesPerson", "fée", "fE"],
      ∀ c ∈ name.toList.head?, isAscii c = true) ∧
    (∀ name ∈ ["", "mouse", "salesPerson", "fée"],
      pluralize (capitalize name) = capitalize (pluralize name)) ∧
    pluralize (capitalize "fE") ≠ capitalize (pluralize "fE") := by
  have hascii : ∀ name ∈ ["", "mouse", "salesPerson", "fée", "fE"],
      ∀ c ∈ name.toList.head?, isAscii c = true := by
    simp [isAscii]
  have hnot : ∀ name ∈ ["", "mouse", "salesPerson", "fée"], name ∉ spellingsOfFe := by
    simp [spellingsOfFe]
  have hfe : "fE" ∈ spellingsOfFe := by simp [spellingsOfFe]
  refine ⟨hascii, fun name hname => ?_, fun heq => ?_⟩
  · exact (pluralize_capitalize_iff_of_isAscii
      (hascii name (List.mem_append_left ["fE"] hname))).mpr (hnot name hname)
  · exact (pluralize_capitalize_iff_of_isAscii (hascii "fE" (by simp))).mp heq hfe

end Scaffold.Naming
