import Scaffold.Proofs.Naming.SelfPlural
import Scaffold.Proofs.Text.Offsets

/-!
# Plurals by byte offsets

  A name can be put into the plural by cutting it at byte offsets: where its last
  segment begins, and one or two bytes in front of its end. The segment begins
  where a character does, and what is cut off the end are letters of ASCII, with
  as many bytes as letters. So no cut is inside a character. The byte in front of
  a final -y is read without a cut, and it may be the last of several bytes of a
  character: then it is the byte of no vowel, and that is all the rule asks.
-/

namespace Scaffold.Naming

open Text Text.Accessing
open String (utf8Len)

/-! ## The computation -/

/-- Where the last word begins: behind the last underscore. -/
def wordOffset (name : List Char) : Nat :=
  match lastOffset? (· == '_') name with
  | some n => n + 1
  | none => 0

/-- Where the last segment begins: at the last capital of the last word, or else where the word
    does. -/
def segmentOffset (name : List Char) : Accessing Nat := do
  let (_, word) ← cut name (wordOffset name)
  return wordOffset name + (lastOffset? isUpper word).getD 0

/-- The name without so many bytes at its end. -/
def cutFromEnd (name : List Char) (bytes : Nat) : Accessing (List Char) := do
  let (front, _) ← cut name (← fromEnd name bytes)
  return front

/-- The bytes of the letters that keep a final -y. -/
def vowelBytes : List UInt8 := [97, 101, 105, 111, 117]

/-- A final -y behind another character than a vowel gives -ies, and every other name takes -s. The
    character is told by the byte in front of the -y. -/
def lastRules (name : List Char) : Accessing (List Char) := do
  if endsIn "y" name && 1 < utf8Len name then
    let lower := name.map Char.toLower
    let before ← read lower (← fromEnd lower 2)
    if vowelBytes.contains before then
      return name ++ "s".toList
    else
      return (← cutFromEnd name 1) ++ "ies".toList
  else
    return name ++ "s".toList

/-- The regular plural, by byte offsets. -/
def regularByOffsets (name : List Char) (segment : String) : Accessing (List Char) := do
  if endsIn "is" name && 2 < utf8Len name then
    return (← cutFromEnd name 2) ++ "es".toList
  else if endsIn "fe" name then
    return (← cutFromEnd name 2) ++ "ves".toList
  else if nounsInF.contains segment then
    return (← cutFromEnd name 1) ++ "ves".toList
  else if nounsInO.contains segment then
    return name ++ "es".toList
  else if ["s", "x", "z", "ch", "sh"].any (endsIn · name) then
    return name ++ "es".toList
  else
    lastRules name

/-- The plural of a name, by byte offsets. -/
def pluralizeByOffsets (name : List Char) : Accessing (List Char) := do
  if name.isEmpty then
    return name
  else
    let (head, segment) ← cut name (← segmentOffset name)
    let key := String.ofList (lowerChars segment)
    if uncountable.contains key then
      return name
    else match irregular.lookup key with
      | some plural =>
        return head ++
          (if (segment.head?.map isUpper).getD false then capitalize plural else plural).toList
      | none => regularByOffsets name key

/-! ## The accesses -/

/-- The accesses that can be made to a name: cuts at the borders of its characters, and reading the
    byte in front of a final -y. -/
inductive Fits (name : List Char) : Access → Prop where
  | cut {front back : List Char} (whole : name = front ++ back) : Fits name (.cut (utf8Len front))
  | beforeY {front : List Char} {c y : Char} (whole : name = front ++ [c, y])
      (ending : y.toLower = 'y') : Fits name (.read (utf8Len front + (c.utf8Size - 1)))

variable {name : List Char}

theorem gives_cut_of_eq {front back : List Char} (h : name = front ++ back) :
    Gives (Fits name) (Accessing.cut name (utf8Len front)) (front, back) := by
  have hfits : Fits name (.cut (utf8Len front)) := .cut h
  subst h
  exact gives_cut hfits

/-! ## The last segment -/

theorem exists_lastWord (name : List Char) : ∃ before word, name = before ++ word ∧
    wordOffset name = utf8Len before ∧ (∀ c ∈ word, c ≠ '_') ∧ lastSegment before = [] := by
  rw [wordOffset]
  cases hlast : lastOffset? (· == '_') name with
  | none =>
      refine ⟨[], name, rfl, rfl, fun c hc => ?_, rfl⟩
      simpa using lastOffset?_eq_none hlast c hc
  | some n =>
      obtain ⟨front, c, back, rfl, hc, hback, rfl⟩ := lastOffset?_eq_some hlast
      obtain rfl : c = '_' := by simpa using hc
      refine ⟨front ++ ['_'], back, List.append_cons front '_' back, ?_, ?_, ?_⟩
      · rw [String.utf8Len_append]
        rfl
      · intro d hd
        simpa using hback d hd
      · have hbreak : ['_'].any isBreak = true := rfl
        exact lastSegment_append_of_break hbreak front

/-- The last word holds the last segment, from its last capital on. -/
theorem exists_segment_of_word {before word : List Char} (hbefore : lastSegment before = [])
    (hword : ∀ c ∈ word, c ≠ '_') : ∃ front, word = front ++ lastSegment (before ++ word) ∧
      (lastOffset? isUpper word).getD 0 = utf8Len front := by
  cases hupper : lastOffset? isUpper word with
  | none =>
      have hplain : word.any isBreak = false := by
        rw [List.any_eq_false]
        intro c hc
        simp [isBreak, hword c hc, lastOffset?_eq_none hupper c hc]
      refine ⟨[], ?_, rfl⟩
      rw [lastSegment_append hplain, hbefore]
      rfl
  | some n =>
      obtain ⟨front, c, back, rfl, hc, hback, rfl⟩ := lastOffset?_eq_some hupper
      have hplain : back.any isBreak = false := by
        rw [List.any_eq_false]
        intro d hd
        have hd' := hword d (List.mem_append_right _ (List.mem_cons_of_mem c hd))
        simp [isBreak, hd', hback d hd]
      have hbreak : [c].any isBreak = true := by simp [isBreak, hc]
      have hc' := hword c (List.mem_append_right _ List.mem_cons_self)
      have hwhole : before ++ (front ++ c :: back) = before ++ front ++ [c] ++ back := by simp
      refine ⟨front, ?_, rfl⟩
      rw [hwhole, lastSegment_append hplain, lastSegment_append_of_break hbreak,
        lastSegment_singleton hc']
      rfl

/-- The last segment begins where the computation cuts the name. -/
theorem exists_segmentOffset (name : List Char) : ∃ front, name = front ++ lastSegment name ∧
    Gives (Fits name) (segmentOffset name) (utf8Len front) := by
  obtain ⟨before, word, hname, hstart, hword, hbefore⟩ := exists_lastWord name
  obtain ⟨front, hsegment, hupper⟩ := exists_segment_of_word hbefore hword
  refine ⟨before ++ front, ?_, ?_⟩
  · rw [List.append_assoc, hname, ← hsegment]
  · rw [segmentOffset, hstart, String.utf8Len_append, ← hupper]
    exact (gives_cut_of_eq hname).bind (.pure _ _)

/-! ## The end of a name -/

theorem gives_cutFromEnd {front back : List Char} (h : name = front ++ back) :
    Gives (Fits name) (cutFromEnd name (utf8Len back)) front := by
  have hend : Gives (Fits name) (fromEnd name (utf8Len back)) (utf8Len front) := by
    rw [h]
    exact gives_fromEnd front back
  exact hend.bind ((gives_cut_of_eq h).bind (.pure _ _))

/-- The endings at which a name is cut. -/
def cutEndings : List String := "f" :: endings

theorem isAscii_of_cutEndings : ∀ e ∈ cutEndings, ∀ d ∈ e.toList, isAscii d = true := by
  refine List.forall_mem_cons.mpr ⟨?_, fun e he => (letters_of_endings e he).2⟩
  simp [isAscii]

/-- An ending has as many bytes as letters. -/
theorem exists_front {ending : String} (he : ending ∈ cutEndings) (h : endsIn ending name = true) :
    ∃ front back, name = front ++ back ∧
      back.map Char.toLower = ending.toList ∧ utf8Len back = back.length := by
  obtain ⟨lowered, hlowered⟩ := endsIn_iff.mp h
  obtain ⟨front, back, hname, -, hback⟩ := List.map_eq_append_iff.mp hlowered.symm
  refine ⟨front, back, hname, hback, utf8Len_of_isAscii fun c hc => ?_⟩
  cases hascii : isAscii c with
  | true => rfl
  | false =>
      have hmem : c.toLower ∈ ending.toList := hback ▸ List.mem_map_of_mem hc
      rw [toLower_of_not_isAscii hascii] at hmem
      exact hascii.symm.trans (isAscii_of_cutEndings ending he c hmem)

theorem inner_iff {ending : String} (he : ending ∈ cutEndings) (h : endsIn ending name = true) :
    ending.length < name.length ↔ ending.length < utf8Len name := by
  obtain ⟨front, back, rfl, hback, hbytes⟩ := exists_front he h
  have hlength : ending.length = back.length := by
    rw [← String.length_toList, ← hback, List.length_map]
  have hfront : 0 < front.length ↔ 0 < utf8Len front := by
    rw [List.length_pos_iff, Nat.pos_iff_ne_zero, ne_eq, ne_eq, String.utf8Len_eq_zero]
  rw [List.length_append, String.utf8Len_append, hbytes, hlength]
  omega

/-- The byte in front of a final -y is that of a vowel exactly if the character is one. -/
theorem contains_vowelBytes (c : Char) : ∃ b, (String.utf8EncodeChar c).getLast? = some b ∧
    vowelBytes.contains b = isVowel c := by
  cases h : isAscii c with
  | true =>
      have hsame : (vowelBytes.contains c.val.toUInt8 == isVowel c) = true :=
        forall_ascii (p := fun c => vowelBytes.contains c.val.toUInt8 == isVowel c) (by decide) h
      refine ⟨c.val.toUInt8, ?_, beq_iff_eq.mp hsame⟩
      rw [String.utf8EncodeChar_eq_singleton ((utf8Size_eq_one_iff c).mpr h)]
      rfl
  | false =>
      obtain ⟨b, hb, hlarge⟩ := getLast?_utf8EncodeChar h
      have hsmall : ∀ v ∈ vowelBytes, v.toNat < 128 := by simp [vowelBytes]
      have hvowels : ∀ v ∈ ['a', 'e', 'i', 'o', 'u'], isAscii v = true := by simp [isAscii]
      have hbyte : vowelBytes.contains b = false := by
        rw [← Bool.not_eq_true, List.contains_iff_mem]
        exact fun hmem => absurd (hsmall b hmem) (Nat.not_lt.mpr hlarge)
      have hchar : isVowel c = false := by
        rw [isVowel, ← Bool.not_eq_true, List.contains_iff_mem]
        exact fun hmem => Bool.false_ne_true (h.symm.trans (hvowels c hmem))
      exact ⟨b, hb, hbyte.trans hchar.symm⟩

theorem gives_read_beforeY {front : List Char} {c y : Char} (h : name = front ++ [c, y])
    (hy : y.toLower = 'y') : ∃ b, vowelBytes.contains b = isVowel c.toLower ∧
      Gives (Fits name) (fromEnd (name.map Char.toLower) 2 >>=
        Accessing.read (name.map Char.toLower)) b := by
  obtain ⟨b, hb, hvowel⟩ := contains_vowelBytes c.toLower
  have hlower : name.map Char.toLower = front.map Char.toLower ++ [c.toLower, 'y'] := by
    rw [h, List.map_append, List.map_cons, List.map_singleton, hy]
  have hsize : c.toLower.utf8Size = c.utf8Size := by
    simpa [String.utf8Len_cons] using utf8Len_map_toLower [c]
  have hfront := utf8Len_map_toLower front
  have hpos := c.utf8Size_pos
  have hlen : utf8Len (name.map Char.toLower) = utf8Len front + c.utf8Size + 1 := by
    rw [hlower, String.utf8Len_append, hfront, String.utf8Len_cons, hsize, String.utf8Len_cons,
      String.utf8Len_nil]
    show _ + (0 + 1 + _) = _
    omega
  have hend : Gives (Fits name) (fromEnd (name.map Char.toLower) 2)
      (utf8Len front + (c.utf8Size - 1)) := by
    have hoffset : utf8Len front + c.utf8Size + 1 - 2 = utf8Len front + (c.utf8Size - 1) := by omega
    rw [fromEnd, hlen, if_pos (by omega), hoffset]
    exact .pure _ _
  refine ⟨b, hvowel, hend.bind (gives_read (.beforeY h hy) ?_)⟩
  -- the byte is the last one of the character in front of the -y
  rw [hlower, List.flatMap_append, List.flatMap_cons, ← hfront, ← length_flatMap_utf8EncodeChar,
    List.getElem?_append_right (Nat.le_add_right _ _), Nat.add_sub_cancel_left,
    List.getElem?_append_left (by rw [String.length_utf8EncodeChar]; omega), ← hsize,
    ← String.length_utf8EncodeChar, ← List.getLast?_eq_getElem?]
  exact hb

/-! ## The plural -/

theorem gives_inflected {ending : String} (he : ending ∈ cutEndings)
    (h : endsIn ending name = true) (added : String) :
    Gives (Fits name) (do return (← cutFromEnd name ending.length) ++ added.toList)
      ((⟨ending.length, added⟩ : Inflection).apply name) := by
  obtain ⟨front, back, hname, hback, hbytes⟩ := exists_front he h
  have hlength : ending.length = back.length := by
    rw [← String.length_toList, ← hback, List.length_map]
  rw [hlength, apply_eq hname, ← hbytes]
  exact (gives_cutFromEnd hname).bind (.pure _ _)

theorem gives_kept (added : String) : Gives (Fits name) (return name ++ added.toList)
    ((⟨0, added⟩ : Inflection).apply name) := by
  rw [Inflection.apply, Nat.sub_zero, List.take_length]
  exact .pure _ _

/-- A listed noun in -f ends in f. -/
theorem endsIn_f (h : key name ∈ nounsInF) : endsIn "f" name = true := by
  have hlisted : IsListed name := List.mem_append_left _ (List.mem_append_right _ h)
  have hall : ∀ w ∈ nounsInF, "f".toList <:+ w.toList := by decide
  rw [endsIn_iff]
  refine (hall _ h).trans ?_
  rw [hlisted.toList_key]
  exact (lastSegment_suffix name).map Char.toLower

/-- Whether a name is longer than its ending can be told from the bytes. -/
theorem and_inner_eq {ending : String} (he : ending ∈ cutEndings) (name : List Char) :
    (endsIn ending name && decide (ending.length < utf8Len name)) =
      (endsIn ending name && decide (ending.length < name.length)) := by
  cases h : endsIn ending name with
  | false => rfl
  | true => simp [inner_iff he h]

theorem exists_beforeY (h : (endsIn "y" name && decide (1 < name.length)) = true) :
    ∃ front c y, name = front ++ [c, y] ∧ y.toLower = 'y' ∧
      endsInConsonantY name = !isVowel c.toLower := by
  obtain ⟨hends, hlength⟩ := Bool.and_eq_true_iff.mp h
  have hlength := of_decide_eq_true hlength
  rw [← List.length_reverse] at hlength
  rw [endsIn_eq] at hends
  -- the name is read from its end
  have hname := name.reverse_reverse.symm
  cases hback : name.reverse with
  | nil => rw [hback] at hlength; exact nomatch hlength
  | cons y rest =>
      cases rest with
      | nil => rw [hback] at hlength; exact absurd hlength (Nat.lt_irrefl 1)
      | cons c rest =>
          rw [hback] at hends hname
          have hy : y.toLower = 'y' := by
            rw [List.map_cons] at hends
            exact (beq_iff_eq.mp (Bool.and_eq_true_iff.mp hends).1).symm
          refine ⟨rest.reverse, c, y, hname.trans (by simp), hy, ?_⟩
          rw [endsInConsonantY, hback, List.map_cons, List.map_cons, hy]
          rfl

theorem gives_lastRules (name : List Char) : Gives (Fits name) (lastRules name)
    ((if endsInConsonantY name then ⟨1, "ies"⟩ else ⟨0, "s"⟩ : Inflection).apply name) := by
  have hy : (endsIn "y" name && decide (1 < utf8Len name)) =
      (endsIn "y" name && decide (1 < name.length)) := and_inner_eq (by decide) name
  rw [lastRules, hy]
  cases h : endsIn "y" name && decide (1 < name.length) with
  | false =>
      have hconsonant : endsInConsonantY name = false := by
        rw [endsInConsonantY_eq, h, Bool.false_and]
      rw [hconsonant]
      exact gives_kept "s"
  | true =>
      obtain ⟨front, c, y, hname, hy, hconsonant⟩ := exists_beforeY h
      obtain ⟨b, hvowel, hread⟩ := gives_read_beforeY hname hy
      rw [if_pos rfl, ← bind_assoc, hconsonant]
      refine hread.bind ?_
      rw [hvowel]
      cases isVowel c.toLower with
      | true => exact gives_kept "s"
      | false => exact gives_inflected (by decide) (Bool.and_eq_true_iff.mp h).1 "ies"

theorem gives_regularByOffsets (name : List Char) :
    Gives (Fits name) (regularByOffsets name (key name))
      ((regularInflection name (key name)).apply name) := by
  have his : (endsIn "is" name && decide (2 < utf8Len name)) =
      (endsIn "is" name && decide (2 < name.length)) := and_inner_eq (by decide) name
  rw [regularByOffsets, regularInflection, his]
  by_cases h₁ : (endsIn "is" name && decide (2 < name.length)) = true
  · rw [if_pos h₁, if_pos h₁]
    exact gives_inflected (by decide) (Bool.and_eq_true_iff.mp h₁).1 "es"
  rw [if_neg h₁, if_neg h₁]
  by_cases h₂ : endsIn "fe" name = true
  · rw [if_pos h₂, if_pos h₂]
    exact gives_inflected (by decide) h₂ "ves"
  rw [if_neg h₂, if_neg h₂]
  by_cases h₃ : nounsInF.contains (key name) = true
  · rw [if_pos h₃, if_pos h₃]
    exact gives_inflected (by decide) (endsIn_f (List.contains_iff_mem.mp h₃)) "ves"
  rw [if_neg h₃, if_neg h₃]
  by_cases h₄ : nounsInO.contains (key name) = true
  · rw [if_pos h₄, if_pos h₄]
    exact gives_kept "es"
  rw [if_neg h₄, if_neg h₄]
  by_cases h₅ : (["s", "x", "z", "ch", "sh"].any (endsIn · name)) = true
  · rw [if_pos h₅, if_pos h₅]
    exact gives_kept "es"
  rw [if_neg h₅, if_neg h₅]
  exact gives_lastRules name

theorem gives_pluralizeByOffsets (name : List Char) :
    Gives (Fits name) (pluralizeByOffsets name) (pluralizeChars name) := by
  by_cases hempty : name = []
  · rw [hempty]
    exact .pure _ _
  obtain ⟨front, hname, hstart⟩ := exists_segmentOffset name
  rw [pluralizeByOffsets, if_neg (by simpa using hempty), pluralizeChars_of_ne_nil hempty]
  refine hstart.bind ((gives_cut_of_eq hname).bind ?_)
  show Gives (Fits name) (if uncountable.contains (key name) = true then pure name else
    match irregular.lookup (key name) with
    | some plural => pure (front ++ (if ((lastSegment name).head?.map isUpper).getD false then
        capitalize plural else plural).toList)
    | none => regularByOffsets name (key name)) _
  have hinflection : inflection name = if uncountable.contains (key name) = true then ⟨0, ""⟩ else
      match irregular.lookup (key name) with
      | some plural => ⟨(lastSegment name).length,
          if ((lastSegment name).head?.map isUpper).getD false then capitalize plural else plural⟩
      | none => regularInflection name (key name) := rfl
  rw [hinflection]
  cases uncountable.contains (key name) with
  | true =>
      rw [if_pos rfl, if_pos rfl, apply_nothing]
      exact .pure _ _
  | false =>
      rw [if_neg Bool.false_ne_true, if_neg Bool.false_ne_true]
      cases irregular.lookup (key name) with
      | some plural =>
          rw [apply_eq hname]
          exact .pure _ _
      | none => exact gives_regularByOffsets name

/-! ## The borders of characters -/

theorem isValid_of_fits_cut {w : String} {n : Nat} (h : Fits w.toList (.cut n)) :
    String.Pos.Raw.IsValid w ⟨n⟩ := by
  cases h with
  | cut whole =>
      rw [← isSome_cutAt?_iff, whole, cutAt?_append]
      rfl

theorem fits_read {w : String} {n : Nat} (h : Fits w.toList (.read n)) :
    ∃ front c y, w.toList = front ++ [c, y] ∧ y.toLower = 'y' ∧ n + 2 = w.utf8ByteSize ∧
      (String.Pos.Raw.IsValid w ⟨n⟩ ↔ isAscii c = true) := by
  cases h with
  | @beforeY front c y whole ending =>
      have hpos := c.utf8Size_pos
      have hy : y.utf8Size = 1 := by
        have hsame := utf8Len_map_toLower [y]
        rw [List.map_singleton, ending, String.utf8Len_cons, String.utf8Len_cons] at hsame
        exact (Nat.add_left_cancel hsame).symm
      refine ⟨front, c, y, whole, ending, ?_, ?_⟩
      · rw [← String.ofList_toList (s := w), String.utf8ByteSize_ofList, whole,
          String.utf8Len_append, String.utf8Len_cons, String.utf8Len_cons, String.utf8Len_nil, hy]
        omega
      · rw [← isSome_cutAt?_iff, whole, ← utf8Size_eq_one_iff]
        by_cases hone : c.utf8Size = 1
        · rw [hone, Nat.sub_self, Nat.add_zero, cutAt?_append]
          exact iff_of_true rfl rfl
        · rw [cutAt?_inside (by omega) (by omega)]
          exact iff_of_false Bool.false_ne_true hone

/-- A name is cut only at the borders of its characters, and read only at the second byte from its
    end, which may be inside the character in front of a final -y. So there always is a plural. It
    is empty only for the empty name, and the name itself only for that and for nouns without a
    plural form. -/
theorem pluralize_safe (w : String) :
    (∃ log, (pluralizeByOffsets w.toList).run [] = some ((pluralize w).toList, log) ∧
      (∀ n, .cut n ∈ log → String.Pos.Raw.IsValid w ⟨n⟩) ∧
      ∀ n, .read n ∈ log → n < w.utf8ByteSize ∧ ∃ front c y, w.toList = front ++ [c, y] ∧
        y.toLower = 'y' ∧ n + 2 = w.utf8ByteSize ∧
        (String.Pos.Raw.IsValid w ⟨n⟩ ↔ isAscii c = true)) ∧
    (pluralize w ≠ "" ↔ w ≠ "") ∧
    (pluralize w = w ↔
      w = "" ∨ String.ofList (lowerChars (lastSegment w.toList)) ∈ uncountable) := by
  refine ⟨?_, ?_, ?_⟩
  · obtain ⟨log, hlog, hrun⟩ := gives_pluralizeByOffsets w.toList
    refine ⟨log, ?_, fun n hn => isValid_of_fits_cut (hlog _ hn), fun n hn => ?_⟩
    · rw [toList_pluralize]
      exact hrun []
    · obtain ⟨front, c, y, hw, hy, hsize, hborder⟩ := fits_read (hlog _ hn)
      exact ⟨by omega, front, c, y, hw, hy, hsize, hborder⟩
  · rw [not_iff_not, ← String.toList_eq_nil_iff, toList_pluralize, pluralizeChars_eq_nil_iff,
      String.toList_eq_nil_iff]
  · rw [← String.toList_inj, toList_pluralize, pluralizeChars_eq_self_iff,
      String.toList_eq_nil_iff]
    rfl

/-- The byte in front of the -y may be inside a character. -/
theorem read_inside_character : ∃ log,
    (pluralizeByOffsets "éy".toList).run [] = some ((pluralize "éy").toList, log) ∧
      .read 1 ∈ log ∧ ¬ String.Pos.Raw.IsValid "éy" ⟨1⟩ := by
  refine ⟨[.cut 0, .cut 0, .read 1, .cut 2], by decide +kernel, by decide, ?_⟩
  decide +kernel

end Scaffold.Naming
