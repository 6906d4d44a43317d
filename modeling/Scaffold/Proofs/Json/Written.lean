import Scaffold.Proofs.Json.Spelling

/-!
# Written texts are spellings

  The text that a value is written as on several lines spells the tokens of the
  tree of the value. Texts are escaped where they have to be, and what stands on
  lines of its own has nothing but white space around it. So this text is read
  as the tree of the value, and so is every other spelling of it.
-/

namespace Scaffold.Json

/-! ## Spellings in a row -/

namespace AllSpelled

variable {ts us : List Token} {cs ds : List Char}

theorem one {t : Token} (h : t.Spelled cs) : AllSpelled [t] cs := by
  have hone : AllSpelled [t] ([] ++ cs ++ []) := .cons nofun h (.nil nofun)
  rwa [List.nil_append, List.append_nil] at hone

theorem blank_append {blank : List Char} (hblank : IsBlank blank) (h : AllSpelled ts cs) :
    AllSpelled ts (blank ++ cs) := by
  cases h with
  | nil h => exact .nil fun c hc => (List.mem_append.mp hc).elim (hblank c) (h c)
  | @cons t ts blank' cs rest h ht hts =>
      have hboth : IsBlank (blank ++ blank') :=
        fun c hc => (List.mem_append.mp hc).elim (hblank c) (h c)
      rw [← List.append_assoc, ← List.append_assoc]
      exact .cons hboth ht hts

theorem append (h : AllSpelled ts cs) (h' : AllSpelled us ds) :
    AllSpelled (ts ++ us) (cs ++ ds) := by
  induction h with
  | nil hblank => exact blank_append hblank h'
  | cons hblank ht _ ih =>
      rw [List.append_assoc]
      exact .cons hblank ht ih

end AllSpelled

/-! ## Texts between quotes -/

/-- A control is escaped by its number. -/
theorem Piece.spelled_control {c : Char} (h : c.toNat < 0x20) :
    (Piece.char c).Spelled ("\\u" ++ Value.hex4 c.toNat).toList := by
  have high : hexDigit? (Nat.digitChar (c.toNat / 16)) = some (c.toNat / 16) :=
    hexDigit?_digitChar _ (by omega)
  have low : hexDigit? (Nat.digitChar (c.toNat % 16)) = some (c.toNat % 16) :=
    hexDigit?_digitChar _ (by omega)
  have hcode := Spelled.code (show hexDigit? '0' = some 0 from rfl)
    (show hexDigit? '0' = some 0 from rfl) high low
  have hunit : ((0 * 16 + 0) * 16 + c.toNat / 16) * 16 + c.toNat % 16 = c.toNat := by omega
  rw [hunit, Piece.ofUnit_toNat h] at hcode
  rw [String.toList_append, Value.toList_hex4 _ h]
  exact hcode

theorem Piece.spelled_escape (c : Char) : (Piece.char c).Spelled (Value.escape c).toList := by
  unfold Value.escape
  split
  -- the characters that are escaped by a letter or by themselves
  iterate 7 exact .letter rfl
  next c hquote hback _ _ _ _ _ =>
    split
    · next hc => exact spelled_control hc
    · next hc =>
        rw [Char.toString_eq_singleton, String.toList_singleton]
        exact .plain (by simpa using hquote) (by simpa using hback) (Nat.not_lt.mp hc)

theorem Token.spelled_quote (s : String) :
    Token.Spelled (.text (Piece.ofText s)) (Value.quote s).toList := by
  have hpieces : ∀ cs : List Char, List.Forall₂ Piece.Spelled (cs.map Piece.char)
      (cs.map fun c => (Value.escape c).toList) := by
    intro cs
    induction cs with
    | nil => exact .nil
    | cons c cs ih => exact .cons (Piece.spelled_escape c) ih
  have hquote : (Value.quote s).toList =
      '"' :: ((s.toList.map fun c => (Value.escape c).toList).flatten ++ ['"']) := by
    have hjoin : ∀ cs : List Char, (String.join (cs.map Value.escape)).toList =
        (cs.map fun c => (Value.escape c).toList).flatten := by
      intro cs
      induction cs with
      | nil => rfl
      | cons c cs ih => rw [List.map_cons, String.join_cons, String.toList_append, ih]; rfl
    rw [Value.quote, String.toList_append, String.toList_append, hjoin]
    rfl
  rw [hquote]
  exact .text (hpieces s.toList)

/-! ## Lines -/

namespace Value

theorem isBlank_newLine (level : Nat) : IsBlank (newLine level).toList := by
  rw [newLine, String.toList_append]
  intro c hc
  rcases List.mem_append.mp hc with hc | hc
  · rw [List.mem_singleton.mp hc]
    rfl
  · rw [String.toList_ofList] at hc
    rw [List.eq_of_mem_replicate hc]
    rfl

theorem prettyItems_eq_map (level : Nat) (vs : List Value) :
    prettyItems level vs = vs.map (prettyAt level) := by
  induction vs with
  | nil => rfl
  | cons v vs ih => rw [prettyItems, ih, List.map_cons]

theorem prettyMembers_eq_map (level : Nat) (ms : List (String × Value)) :
    prettyMembers level ms = ms.map fun m => quote m.1 ++ ": " ++ m.2.prettyAt level := by
  induction ms with
  | nil => rfl
  | cons m ms ih =>
      obtain ⟨key, v⟩ := m
      rw [prettyMembers, ih, List.map_cons]

variable {α : Type} {text : α → String} {ts : α → List Token} {as : List α}

/-- Parts on lines of their own, with commas between them. -/
theorem allSpelled_lines (h : ∀ a ∈ as, AllSpelled (ts a) (text a).toList) (level : Nat) :
    AllSpelled ([.comma].intercalate (as.map ts))
      (("," ++ newLine level).intercalate (as.map text)).toList := by
  induction as with
  | nil => exact .nil nofun
  | cons a as ih =>
      have ha := h a List.mem_cons_self
      have ih := ih fun b hb => h b (List.mem_cons_of_mem a hb)
      -- no comma stands behind the last part
      cases as with
      | nil =>
          simp only [List.map_cons, List.map_nil, String.intercalate_singleton,
            List.intercalate_singleton]
          exact ha
      | cons b as =>
          have comma : AllSpelled [.comma] ("," ++ newLine level).toList := by
            rw [String.toList_append]
            exact (AllSpelled.one .comma).append (.nil (isBlank_newLine level))
          simp only [List.map_cons, String.intercalate_cons_cons, List.intercalate_cons_cons,
            String.toList_append] at ih comma ⊢
          exact (ha.append comma).append ih

/-- Parts between brackets. -/
theorem allSpelled_block {opening closing : String} {first last : Token}
    (hfirst : first.Spelled opening.toList) (hlast : last.Spelled closing.toList)
    (h : ∀ a ∈ as, AllSpelled (ts a) (text a).toList) (level : Nat) :
    AllSpelled (first :: ([.comma].intercalate (as.map ts) ++ [last]))
      (block opening closing level (as.map text)).toList := by
  cases as with
  | nil =>
      show AllSpelled [first, last] (opening ++ closing).toList
      rw [String.toList_append]
      exact (AllSpelled.one hfirst).append (.one hlast)
  | cons a as =>
      show AllSpelled _ (opening ++ newLine (level + 1) ++
        ("," ++ newLine (level + 1)).intercalate ((a :: as).map text) ++ newLine level ++
          closing).toList
      simp only [String.toList_append, List.append_assoc]
      have hrest := (AllSpelled.one hlast).blank_append (isBlank_newLine level)
      have hlines := (allSpelled_lines h (level + 1)).append hrest
      exact (AllSpelled.one hfirst).append (hlines.blank_append (isBlank_newLine (level + 1)))

/-- **What is written on several lines is a spelling** of the tree of the value. -/
theorem allSpelled_prettyAt (v : Value) (level : Nat) :
    AllSpelled v.tree.tokens (v.prettyAt level).toList := by
  induction v generalizing level with
  | null =>
      rw [prettyAt]
      exact .one .null
  | text s =>
      rw [prettyAt]
      exact .one (Token.spelled_quote s)
  | array items ih =>
      rw [prettyAt, tree, Tree.tokens, itemTokens_eq, itemTrees_eq_map, prettyItems_eq_map,
        List.map_map]
      exact allSpelled_block .openArray .closeArray (fun v hv => ih v hv (level + 1)) level
  | object members ih =>
      rw [prettyAt, tree, Tree.tokens, memberTokens_eq, memberTrees_eq_map, prettyMembers_eq_map,
        List.map_map]
      refine allSpelled_block .openObject .closeObject (fun m hm => ?_) level
      rw [String.toList_append, String.toList_append]
      have hblank : IsBlank [' '] := List.forall_mem_singleton.mpr rfl
      have colon : AllSpelled [.colon] ": ".toList :=
        (AllSpelled.one .colon).append (.nil hblank)
      exact ((AllSpelled.one (Token.spelled_quote m.1)).append colon).append
        (ih m hm (level + 1))

end Value

end Scaffold.Json
