import Mathlib.Data.Fintype.EquivFin
import Scaffold.Proofs.Files.Following

/-!
# Staying below a directory

  A text that is joined to a directory leads to something below the directory
  above it, unless it begins at the root, ends there, or steps out of it on its
  way. The heart is that only the number of names below that directory decides
  this as long as it is not left; and once it has been left, what stands in it
  is reached again only by a step that is called like it.
-/

namespace Scaffold.Files

/-- What stands at the location is strictly below what stands at `above`. -/
def IsBelow (l above : Location) : Prop := ∃ names : List String, names ≠ [] ∧ l = names ++ above

/-- How many names below a directory the steps lead that start `n` names below it, unless they step
    out of it on their way. -/
def depth? : Nat → List String → Option Nat
  | n, [] => some n
  | n, step :: steps =>
    if step = ".." then
      match n with
      | 0 => none
      | n + 1 => depth? n steps
    else depth? (n + 1) steps

/-- Joined to a directory, the text leads to something below the directory above, and does not
    leave it on the way. -/
def StaysBelow (text : String) : Prop :=
  text.toList.head? ≠ some '/' ∧ ∃ n, depth? 1 (Path.steps ⟨text⟩) = some (n + 1)

/-! ## Walks -/

theorem depth?_name {step : String} (h : step ≠ "..") (n : Nat) (steps : List String) :
    depth? n (step :: steps) = depth? (n + 1) steps := by
  cases n <;> rw [depth?, if_neg h]

theorem depth?_above (n : Nat) (steps : List String) :
    depth? (n + 1) (".." :: steps) = depth? n steps := by
  rw [depth?, if_pos rfl]

theorem depth?_add {n m : Nat} {steps : List String} (h : depth? n steps = some m) (k : Nat) :
    depth? (n + k) steps = some (m + k) := by
  induction steps generalizing n with
  | nil =>
      rw [depth?] at h ⊢
      rw [Option.some.inj h]
  | cons step steps ih =>
      by_cases hstep : step = ".."
      · subst hstep
        cases n with
        | zero => exact nomatch h
        | succ n =>
            rw [depth?_above] at h
            rw [Nat.add_right_comm, depth?_above]
            exact ih h
      · rw [depth?_name hstep] at h ⊢
        rw [Nat.add_right_comm]
        exact ih h

/-- As long as a directory is not left, all locations on the way are below it. -/
theorem foldl_along_of_depth {steps : List String} (hdot : "." ∉ steps) {l : Location} {n : Nat}
    (h : depth? l.length steps = some n) (above : Location) :
    ∃ l' : Location, l'.length = n ∧ steps.foldl along (l ++ above) = l' ++ above := by
  induction steps generalizing l with
  | nil => exact ⟨l, Option.some.inj h, rfl⟩
  | cons step steps ih =>
      rw [List.mem_cons, not_or] at hdot
      rw [List.foldl_cons]
      by_cases hstep : step = ".."
      · subst hstep
        cases l with
        | nil => exact nomatch h
        | cons name l =>
            rw [List.length_cons, depth?_above] at h
            exact ih hdot.2 h
      · rw [depth?_name hstep] at h
        rw [along_name (Ne.symm hdot.1) hstep]
        exact ih hdot.2 (l := step :: l) h

/-- A walk comes only to what was there, or to what it has stepped to. -/
theorem mem_foldl_along {steps : List String} {l : Location} {x : String}
    (h : x ∈ steps.foldl along l) : x ∈ l ∨ x ∈ steps := by
  induction steps generalizing l with
  | nil => exact Or.inl h
  | cons step steps ih =>
      rcases ih h with hl | hsteps
      · rw [along] at hl
        split at hl
        · exact Or.inl hl
        · split at hl
          · exact Or.inl (List.mem_of_mem_tail hl)
          · rcases List.mem_cons.mp hl with rfl | hl
            · exact Or.inr List.mem_cons_self
            · exact Or.inl hl
      · exact Or.inr (List.mem_cons_of_mem step hsteps)

/-- Who has left a directory at the root comes back only by its name. -/
theorem mem_foldl_along_of_left {steps : List String} (hdot : "." ∉ steps) {l : Location}
    (h : depth? l.length steps = none) {root x : String}
    (hx : x ∈ steps.foldl along (l ++ [root])) : x ∈ l ∨ x ∈ steps := by
  induction steps generalizing l with
  | nil => exact nomatch h
  | cons step steps ih =>
      rw [List.mem_cons, not_or] at hdot
      rw [List.foldl_cons] at hx
      by_cases hstep : step = ".."
      · subst hstep
        cases l with
        | nil =>
            -- the root is left here, so only what is stepped to can follow
            rcases mem_foldl_along hx with hx | hx
            · exact nomatch hx
            · exact Or.inr (List.mem_cons_of_mem _ hx)
        | cons name l =>
            rw [List.length_cons, depth?_above] at h
            rcases ih hdot.2 h hx with hx | hx
            · exact Or.inl (List.mem_cons_of_mem name hx)
            · exact Or.inr (List.mem_cons_of_mem _ hx)
      · rw [depth?_name hstep] at h
        rw [along_name (Ne.symm hdot.1) hstep] at hx
        rcases ih hdot.2 (l := step :: l) h hx with hx | hx
        · rcases List.mem_cons.mp hx with rfl | hx
          · exact Or.inr List.mem_cons_self
          · exact Or.inl hx
        · exact Or.inr (List.mem_cons_of_mem step hx)

/-! ## Texts -/

theorem dot_notMem_steps (p : Path) : "." ∉ p.steps := by
  rw [Path.steps, List.mem_filter]
  rintro ⟨-, h⟩
  exact absurd h (by decide)

theorem locate_join_join (current : Location) (p : Path) {dir text : String}
    (hdir : Path.IsName dir) (htext : text.toList.head? ≠ some '/') :
    locate current ((p.join dir).join text) =
      (Path.steps ⟨text⟩).foldl along (dir :: locate current p) := by
  have hne := Path.join_name_ne_empty p hdir
  rw [← locate_join_name current p hdir, locate, Path.steps_join htext hne,
    Path.isAbsolute_join htext hne, List.foldl_append, ← locate]

/-- A text that stays below leads below every directory above. -/
theorem StaysBelow.isBelow {text : String} (h : StaysBelow text) {dir : String}
    (hdir : Path.IsName dir) (p : Path) (current : Location) :
    IsBelow (locate current ((p.join dir).join text)) (locate current p) := by
  obtain ⟨htext, n, hdepth⟩ := h
  obtain ⟨names, hlength, hfold⟩ :=
    foldl_along_of_depth (dot_notMem_steps _) (l := [dir]) hdepth (locate current p)
  refine ⟨names, ?_, ?_⟩
  · rintro rfl
    exact nomatch hlength
  · rw [locate_join_join current p hdir htext]
    exact hfold

/-- A text that leads below a directory whose name it does not hold stays below. -/
theorem staysBelow_of_isBelow {text dir root : String} (hdir : Path.IsName dir)
    (hroot : root ≠ dir) (hsteps : root ∉ Path.steps ⟨text⟩)
    (h : IsBelow (locate [root] ((Path.mk ".").join dir |>.join text))
      (locate [root] ⟨"."⟩)) : StaysBelow text := by
  obtain ⟨names, hnames, hlocate⟩ := h
  have hhere : locate [root] ⟨"."⟩ = [root] := rfl
  rw [hhere] at hlocate
  have hmem : root ∈ locate [root] ((Path.mk ".").join dir |>.join text) := by
    rw [hlocate]
    exact List.mem_append_right names List.mem_cons_self
  by_cases htext : text.toList.head? = some '/'
  · -- such a text begins at the root of all
    have habsolute : Path.isAbsolute ⟨text⟩ = true := by
      rw [Path.isAbsolute, htext]
      rfl
    rw [Path.join_eq_self _ htext, locate, habsolute] at hmem
    rcases mem_foldl_along hmem with hmem | hmem
    · cases hmem
    · exact absurd hmem hsteps
  · refine ⟨htext, ?_⟩
    rw [locate_join_join [root] ⟨"."⟩ hdir htext, hhere] at hmem hlocate
    cases hdepth : depth? 1 (Path.steps ⟨text⟩) with
    | none =>
        rcases mem_foldl_along_of_left (dot_notMem_steps _) (l := [dir]) hdepth hmem with hmem | hmem
        · exact absurd (List.mem_singleton.mp hmem) hroot
        · exact absurd hmem hsteps
    | some n =>
        obtain ⟨names', hlength, hfold⟩ :=
          foldl_along_of_depth (dot_notMem_steps _) (l := [dir]) hdepth [root]
        -- both count the same names, and there is one at least
        have heq : names' = names := List.append_cancel_right (hfold.symm.trans hlocate)
        obtain ⟨name, rest, rfl⟩ := List.exists_cons_of_ne_nil hnames
        rw [heq, List.length_cons] at hlength
        exact ⟨rest.length, congrArg some hlength.symm⟩

/-- Whatever is called like a directory, somewhere there is a root that is not. -/
theorem staysBelow_of_forall {text dir : String} (hdir : Path.IsName dir)
    (h : ∀ current, IsBelow (locate current ((Path.mk ".").join dir |>.join text))
      (locate current ⟨"."⟩)) : StaysBelow text := by
  obtain ⟨root, hroot⟩ := Infinite.exists_notMem_finset (dir :: Path.steps ⟨text⟩).toFinset
  rw [List.mem_toFinset, List.mem_cons, not_or] at hroot
  exact staysBelow_of_isBelow hdir hroot.1 hroot.2 (h [root])

/-! ### Texts with something in front -/

theorem pieces_append {front : String} (hslash : '/' ∉ front.toList) {text first : String}
    {rest : List String} (htext : Path.pieces ⟨text⟩ = first :: rest) :
    Path.pieces ⟨front ++ text⟩ = (front ++ first) :: rest := by
  rw [Path.pieces] at htext ⊢
  obtain ⟨piece, pieces, hsplit, rfl, rfl⟩ := List.map_eq_cons_iff.mp htext
  rw [String.toList_append, Text.splitAt_append_of_notMem hslash hsplit, List.map_cons,
    String.ofList_append, String.ofList_toList]

/-- If the first piece of a text is a name, the others decide whether it stays below. -/
theorem staysBelow_iff {text first : String} {rest : List String}
    (htext : Path.pieces ⟨text⟩ = first :: rest) (hfirst : Path.IsName first) :
    StaysBelow text ↔
      ∃ n, depth? 2 (rest.filter fun piece => piece != "" && piece != ".") = some (n + 1) := by
  have hsteps : Path.steps ⟨text⟩ =
      first :: rest.filter fun piece => piece != "" && piece != "." := by
    rw [Path.steps, htext, List.filter_cons_of_pos (by simp [hfirst.not_empty, hfirst.not_here])]
  have hhead : text.toList.head? ≠ some '/' := by
    intro hhead
    -- the first piece would be what stands before that slash
    obtain ⟨behind, hbehind⟩ := List.head?_eq_some_iff.mp hhead
    have htail : text.toList = [] ++ '/' :: (String.ofList behind).toList := by
      rw [hbehind, String.toList_ofList, List.nil_append]
    have hempty := Path.pieces_eq_append (String.ofList behind) (String.toList_empty) htail
    exact hfirst.not_empty (List.cons.inj (htext.symm.trans hempty)).1
  rw [StaysBelow, and_iff_right hhead, hsteps, depth?_name hfirst.not_above]

section Fronts

variable {front : String} (hslash : '/' ∉ front.toList) (hdash : '-' ∈ front.toList)
include hslash hdash

theorem isName_append {piece : String} (hpiece : '/' ∉ piece.toList) :
    Path.IsName (front ++ piece) := by
  have hmem : '-' ∈ (front ++ piece).toList := by
    rw [String.toList_append]
    exact List.mem_append_left _ hdash
  have hne : ∀ short : String, '-' ∉ short.toList → front ++ piece ≠ short := by
    rintro short hshort rfl
    exact hshort hmem
  refine ⟨?_, hne "" (by decide), hne "." (by decide), hne ".." (by decide)⟩
  rw [String.toList_append, List.mem_append]
  exact fun h => h.elim hslash hpiece

theorem exists_pieces_append (text : String) :
    ∃ first rest, Path.pieces ⟨text⟩ = first :: rest ∧ Path.IsName (front ++ first) ∧
      Path.pieces ⟨front ++ text⟩ = (front ++ first) :: rest := by
  obtain ⟨first, rest, htext⟩ := List.exists_cons_of_ne_nil (Path.pieces_ne_nil ⟨text⟩)
  have hfirst : '/' ∉ first.toList :=
    Path.slash_notMem_of_mem_pieces (htext ▸ List.mem_cons_self)
  exact ⟨first, rest, htext, isName_append hslash hdash hfirst, pieces_append hslash htext⟩

/-- A further front makes no difference. -/
theorem staysBelow_append_iff {front' : String} (hslash' : '/' ∉ front'.toList)
    (hdash' : '-' ∈ front'.toList) (text : String) :
    StaysBelow (front ++ (front' ++ text)) ↔ StaysBelow (front' ++ text) := by
  obtain ⟨first, rest, -, hname, hpieces⟩ := exists_pieces_append hslash' hdash' text
  have hname' := isName_append hslash hdash hname.no_slash
  rw [staysBelow_iff (pieces_append hslash hpieces) hname', staysBelow_iff hpieces hname]

/-- With a front a text stays below if it does so without one, because its first piece then leads
    one step down in any case. -/
theorem StaysBelow.append {text : String} (h : StaysBelow text) : StaysBelow (front ++ text) := by
  obtain ⟨first, rest, htext, hname, hpieces⟩ := exists_pieces_append hslash hdash text
  rw [staysBelow_iff hpieces hname]
  obtain ⟨-, n, hdepth⟩ := h
  rw [Path.steps, htext, List.filter_cons] at hdepth
  split at hdepth
  · by_cases habove : first = ".."
    · rw [habove, depth?_above] at hdepth
      exact ⟨n + 2, depth?_add hdepth 2⟩
    · rw [depth?_name habove] at hdepth
      exact ⟨n, hdepth⟩
  · -- the first piece is no step at all
    exact ⟨n + 1, depth?_add hdepth 1⟩

end Fronts

theorem staysBelow_of_isName {text : String} (h : Path.IsName text) : StaysBelow text := by
  rw [staysBelow_iff h.pieces_eq h]
  exact ⟨1, rfl⟩

end Scaffold.Files
