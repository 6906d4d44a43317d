import Scaffold.Path

/-!
# Paths that are joined

  Two paths are the same as far as their components are, whatever slashes and
  dots stand between these. A piece that is joined to a path goes behind its
  components and does not touch them, unless it begins with a slash and stands
  for itself. The heart is that a text is split at a slash into what stands
  before it and what stands behind it, each on its own.
-/

namespace Scaffold

/-! ## Splitting -/

namespace Text

variable {sep : Char} {xs : List Char}

theorem splitAt_ne_nil (sep : Char) (xs : List Char) : splitAt sep xs ≠ [] := by
  cases xs with
  | nil => exact List.cons_ne_nil _ _
  | cons x xs =>
      rw [splitAt]
      split
      · exact List.cons_ne_nil _ _
      · split <;> exact List.cons_ne_nil _ _

theorem splitAt_cons_of_ne {c : Char} (hc : c ≠ sep) {piece : List Char} {rest : List (List Char)}
    (h : splitAt sep xs = piece :: rest) : splitAt sep (c :: xs) = (c :: piece) :: rest := by
  rw [splitAt, if_neg hc, h]

/-- Both sides of a separator are split on their own. -/
theorem splitAt_append_cons (sep : Char) (xs ys : List Char) :
    splitAt sep (xs ++ sep :: ys) = splitAt sep xs ++ splitAt sep ys := by
  induction xs with
  | nil =>
      show splitAt sep (sep :: ys) = [] :: splitAt sep ys
      rw [splitAt, if_pos rfl]
  | cons c cs ih =>
      by_cases hc : c = sep
      · rw [List.cons_append, splitAt, if_pos hc, ih, splitAt, if_pos hc]
        rfl
      · cases hcs : splitAt sep cs with
        | nil => exact absurd hcs (splitAt_ne_nil sep cs)
        | cons piece rest =>
            rw [hcs] at ih
            rw [List.cons_append, splitAt_cons_of_ne hc ih, splitAt_cons_of_ne hc hcs]
            rfl

/-- Texts that are set apart by a separator are split on their own. -/
theorem splitAt_intercalate (sep : Char) {texts : List (List Char)} (h : texts ≠ []) :
    splitAt sep ([sep].intercalate texts) = texts.flatMap (splitAt sep) := by
  induction texts with
  | nil => exact absurd rfl h
  | cons text texts ih =>
      cases texts with
      | nil => simp
      | cons next texts =>
          rw [List.intercalate_cons_cons, List.append_assoc, List.singleton_append,
            splitAt_append_cons, ih (List.cons_ne_nil next texts)]
          rfl

/-- Without a separator a text goes into the first piece. -/
theorem splitAt_append_of_notMem (h : sep ∉ xs) {ys piece : List Char} {rest : List (List Char)}
    (hys : splitAt sep ys = piece :: rest) : splitAt sep (xs ++ ys) = (xs ++ piece) :: rest := by
  induction xs with
  | nil => exact hys
  | cons c cs ih =>
      obtain ⟨hc, hcs⟩ := not_or.mp fun hmem => h (List.mem_cons.mpr hmem)
      exact splitAt_cons_of_ne (Ne.symm hc) (ih hcs)

theorem splitAt_of_notMem (h : sep ∉ xs) : splitAt sep xs = [xs] := by
  have happend := splitAt_append_of_notMem h (rfl : splitAt sep [] = [[]])
  rw [List.append_nil] at happend
  exact happend

/-- No piece holds what sets the pieces apart. -/
theorem notMem_of_mem_splitAt {sep : Char} {xs piece : List Char} (h : piece ∈ splitAt sep xs) :
    sep ∉ piece := by
  induction xs generalizing piece with
  | nil =>
      rw [List.mem_singleton.mp h]
      exact List.not_mem_nil
  | cons c cs ih =>
      obtain ⟨first, rest, hcs⟩ := List.exists_cons_of_ne_nil (splitAt_ne_nil sep cs)
      by_cases hc : c = sep
      · rw [splitAt, if_pos hc] at h
        rcases List.mem_cons.mp h with rfl | h
        · exact List.not_mem_nil
        · exact ih h
      · rw [splitAt_cons_of_ne hc hcs] at h
        rcases List.mem_cons.mp h with rfl | h
        · have hfirst := ih (hcs ▸ List.mem_cons_self)
          simp [Ne.symm hc, hfirst]
        · exact ih (hcs ▸ List.mem_cons_of_mem first h)

end Text

namespace Path

/-! ## Components -/

/-- The pieces that lead to another place. -/
def steps (p : Path) : List String := p.pieces.filter fun piece => piece != "" && piece != "."

/-- What a path is compared by: the root or a dot, if it begins so, and the pieces that lead to
    another place. -/
def components (p : Path) : List String :=
  (if p.isAbsolute then ["/"] else if p.pieces.head? = some "." then ["."] else []) ++ p.steps

/-- A text that leads from a directory to an entry of it. -/
structure IsName (name : String) : Prop where
  no_slash : '/' ∉ name.toList
  not_empty : name ≠ ""
  not_here : name ≠ "."
  not_above : name ≠ ".."

theorem pieces_eq_append {text front : String} (behind : String) {xs : List Char}
    (hfront : front.toList = xs) (htext : text.toList = xs ++ '/' :: behind.toList) :
    pieces ⟨text⟩ = pieces ⟨front⟩ ++ pieces ⟨behind⟩ := by
  simp only [pieces]
  rw [htext, Text.splitAt_append_cons, List.map_append, hfront]

theorem pieces_of_no_slash {text : String} (h : '/' ∉ text.toList) : pieces ⟨text⟩ = [text] := by
  simp only [pieces]
  rw [Text.splitAt_of_notMem h, List.map_singleton, String.ofList_toList]

theorem pieces_ne_nil (p : Path) : p.pieces ≠ [] := by
  intro h
  exact Text.splitAt_ne_nil '/' _ (List.map_eq_nil_iff.mp h)

theorem slash_notMem_of_mem_pieces {p : Path} {piece : String} (h : piece ∈ p.pieces) :
    '/' ∉ piece.toList := by
  obtain ⟨cs, hcs, rfl⟩ := List.mem_map.mp h
  rw [String.toList_ofList]
  exact Text.notMem_of_mem_splitAt hcs

namespace IsName

variable {name : String} (h : IsName name)
include h

theorem pieces_eq : pieces ⟨name⟩ = [name] := pieces_of_no_slash h.no_slash

theorem steps_eq : steps ⟨name⟩ = [name] := by
  rw [steps, h.pieces_eq]
  simp [h.not_empty, h.not_here]

theorem head_ne_slash : name.toList.head? ≠ some '/' := fun hhead =>
  h.no_slash (List.mem_of_mem_head? hhead)

end IsName

/-! ## Joining -/

variable {p : Path} {q : String}

theorem join_eq_self (p : Path) (h : q.toList.head? = some '/') : p.join q = ⟨q⟩ := by
  rw [join, if_pos (by rw [h]; rfl)]

/-- In a path that is joined, the pieces in front are those of the first path, but for an empty
    one at its end. -/
theorem pieces_join (h : q.toList.head? ≠ some '/') (hp : p.text ≠ "") :
    ∃ front, (p.join q).pieces = front ++ pieces ⟨q⟩ ∧ front ≠ [] ∧
      (p.pieces = front ∨ p.pieces = front ++ [""]) := by
  have hq : ¬ (q.toList.head? == some '/') = true := by simpa using h
  have hempty : p.text.isEmpty = false := by simpa using hp
  rw [join, if_neg hq, hempty, Bool.false_or]
  by_cases hlast : (p.text.toList.getLast? == some '/') = true
  · obtain ⟨xs, hxs⟩ := List.getLast?_eq_some_iff.mp (beq_iff_eq.mp hlast)
    have hofList : (String.ofList xs).toList = xs := String.toList_ofList
    rw [if_pos hlast]
    refine ⟨pieces ⟨String.ofList xs⟩, pieces_eq_append q hofList ?_, pieces_ne_nil _, Or.inr ?_⟩
    · rw [String.toList_append, hxs, List.append_assoc]
      rfl
    · exact pieces_eq_append "" hofList hxs
  · rw [if_neg hlast]
    refine ⟨p.pieces, pieces_eq_append q rfl ?_, pieces_ne_nil p, Or.inl rfl⟩
    rw [String.toList_append, String.toList_append, List.append_assoc]
    rfl

theorem isAbsolute_join (h : q.toList.head? ≠ some '/') (hp : p.text ≠ "") :
    (p.join q).isAbsolute = p.isAbsolute := by
  have hq : ¬ (q.toList.head? == some '/') = true := by simpa using h
  have hnil : p.text.toList ≠ [] := fun hnil => hp (String.toList_eq_nil_iff.mp hnil)
  rw [join, if_neg hq, isAbsolute, isAbsolute]
  obtain ⟨c, cs, hcs⟩ := List.exists_cons_of_ne_nil hnil
  split <;> simp only [String.toList_append, hcs, List.cons_append, List.head?_cons]

theorem steps_join (h : q.toList.head? ≠ some '/') (hp : p.text ≠ "") :
    (p.join q).steps = p.steps ++ steps ⟨q⟩ := by
  obtain ⟨front, hpieces, -, hp'⟩ := pieces_join h hp
  rw [steps, hpieces, List.filter_append]
  rcases hp' with hp' | hp'
  · rw [steps, hp']
    rfl
  · rw [steps, hp', List.filter_append]
    simp [steps]

/-- What is joined to a path goes behind its components. -/
theorem components_join (h : q.toList.head? ≠ some '/') (hp : p.text ≠ "") :
    (p.join q).components = p.components ++ steps ⟨q⟩ := by
  obtain ⟨front, hpieces, hfront, hp'⟩ := pieces_join h hp
  -- the first piece of `p` stays the first one, so a dot at the front counts as before
  have hsome : front.head?.isSome = true := List.isSome_head?.mpr hfront
  have hhead : (p.join q).pieces.head? = p.pieces.head? := by
    rw [hpieces]
    rcases hp' with hp' | hp'
    · rw [hp', List.head?_append, Option.or_of_isSome hsome]
    · rw [hp', List.head?_append, List.head?_append, Option.or_of_isSome hsome,
        Option.or_of_isSome hsome]
  rw [components, components, isAbsolute_join h hp, hhead, steps_join h hp, List.append_assoc]

/-! ### Names -/

section Names

variable (p) {name : String} (h : IsName name)
include h

theorem join_empty : (⟨""⟩ : Path).join name = ⟨name⟩ := by
  rw [join, if_neg (by simpa using h.head_ne_slash)]
  simp

theorem isAbsolute_name : isAbsolute ⟨name⟩ = false := by
  rw [isAbsolute]
  simpa using h.head_ne_slash

theorem isAbsolute_join_name : (p.join name).isAbsolute = p.isAbsolute := by
  by_cases hp : p.text = ""
  · rw [show p = ⟨""⟩ from congrArg Path.mk hp, join_empty h, isAbsolute_name h]
    rfl
  · exact isAbsolute_join h.head_ne_slash hp

theorem steps_join_name : (p.join name).steps = p.steps ++ [name] := by
  by_cases hp : p.text = ""
  · rw [show p = ⟨""⟩ from congrArg Path.mk hp, join_empty h, h.steps_eq]
    rfl
  · rw [steps_join h.head_ne_slash hp, h.steps_eq]

/-- A name can be joined to any path; the empty one has no components. -/
theorem components_join_name : (p.join name).components = p.components ++ [name] := by
  by_cases hp : p.text = ""
  · have hdot : (pieces ⟨name⟩).head? ≠ some "." := by
      rw [h.pieces_eq]
      exact fun hhead => h.not_here (Option.some.inj hhead)
    rw [show p = ⟨""⟩ from congrArg Path.mk hp, join_empty h, components, isAbsolute_name h,
      if_neg nofun, if_neg hdot, h.steps_eq]
    rfl
  · rw [components_join h.head_ne_slash hp, h.steps_eq]

theorem join_name_ne_empty : (p.join name).text ≠ "" := by
  intro hempty
  have hsteps := steps_join_name p h
  rw [show p.join name = ⟨""⟩ from congrArg Path.mk hempty] at hsteps
  have hlength := congrArg List.length hsteps
  rw [List.length_append, List.length_singleton] at hlength
  exact nomatch hlength

end Names

/-! ### File names -/

/-- What stands behind the last slash. -/
def base (text : String) : String := (pieces ⟨text⟩).getLast (pieces_ne_nil _)

theorem base_of_no_slash {text : String} (h : '/' ∉ text.toList) : base text = text := by
  simp only [base, pieces_of_no_slash h, List.getLast_singleton]

theorem base_join (p : Path) (q : String) : base (p.join q).text = base q := by
  have hpieces : ∃ front, (p.join q).pieces = front ++ pieces ⟨q⟩ := by
    by_cases hq : q.toList.head? = some '/'
    · exact ⟨[], by rw [join_eq_self p hq, List.nil_append]⟩
    · by_cases hp : p.text = ""
      · refine ⟨[], ?_⟩
        rw [join, if_neg (by simpa using hq), hp]
        simp
      · obtain ⟨front, hfront, -⟩ := pieces_join hq hp
        exact ⟨front, hfront⟩
  obtain ⟨front, hpieces⟩ := hpieces
  have hpieces : pieces ⟨(p.join q).text⟩ = front ++ pieces ⟨q⟩ := hpieces
  simp only [base, hpieces, List.getLast_append_of_ne_nil _ (pieces_ne_nil ⟨q⟩)]

/-- What stands behind the last slash is the file name, if it is a name. -/
theorem fileName?_eq_base {p : Path} (h : IsName (base p.text)) :
    p.fileName? = some (base p.text) := by
  have hcounts : ∀ before, counts before (base p.text) = true := by
    simp [counts, h.not_empty, h.not_here]
  have hlast : p.pieces = p.pieces.dropLast ++ [base p.text] :=
    (List.dropLast_concat_getLast (pieces_ne_nil p)).symm
  rw [fileName?, hlast, List.reverse_append, List.reverse_singleton, List.singleton_append, strip,
    if_pos (hcounts _)]
  simp [h.not_here, h.not_above]

/-- The components of a file in a directory below `p`. -/
theorem components_below (p : Path) {dir : String} (hdir : IsName dir)
    (h : q.toList.head? ≠ some '/') :
    ((p.join dir).join q).components = p.components ++ dir :: steps ⟨q⟩ := by
  rw [components_join h (join_name_ne_empty p hdir), components_join_name p hdir,
    List.append_assoc, List.singleton_append]

/-- A text without a slash is the beginning of the first step. -/
theorem steps_append {front : String} (hslash : '/' ∉ front.toList) (hlong : 1 < front.length)
    (behind : String) :
    ∃ piece rest, steps ⟨front ++ behind⟩ = (front ++ piece) :: rest := by
  cases hbehind : Text.splitAt '/' behind.toList with
  | nil => exact absurd hbehind (Text.splitAt_ne_nil '/' _)
  | cons piece rest =>
      have hsplit := Text.splitAt_append_of_notMem hslash hbehind
      have hfirst : String.ofList (front.toList ++ piece) = front ++ String.ofList piece := by
        rw [String.ofList_append, String.ofList_toList]
      have hlength : 1 < (front ++ String.ofList piece).length := by
        rw [String.length_append]
        omega
      -- the first step is too long to be left out as an empty one or a dot
      have hempty : front ++ String.ofList piece ≠ "" := fun h => by
        rw [h] at hlength
        exact nomatch hlength
      have hdot : front ++ String.ofList piece ≠ "." := fun h => by
        rw [h] at hlength
        exact nomatch hlength
      refine ⟨String.ofList piece,
        (rest.map String.ofList).filter fun piece => piece != "" && piece != ".", ?_⟩
      rw [steps, pieces, String.toList_append, hsplit, List.map_cons, hfirst,
        List.filter_cons_of_pos (by simp [hempty, hdot])]

end Path

end Scaffold
