import Mathlib.Data.List.Chain
import Scaffold.Proofs.Json.Document
import Scaffold.Proofs.Json.Lexemes

/-!
# Spellings of documents

  A token can be spelled in many ways, and between two tokens there may be
  white space. All of these texts are cut into the same tokens, as long as the
  tokens can be told apart. The one place where they might not be is the end of
  a number, which only shows in what comes next; in a document a comma or a
  closing bracket comes next, or the end.
-/

namespace Scaffold.Json

/-! ## Spellings of tokens -/

/-- White space or nothing. -/
def IsBlank (cs : List Char) : Prop := ∀ c ∈ cs, isSpace c = true

/-- The spellings of one token. -/
inductive Token.Spelled : Token → List Char → Prop where
  | null : Spelled .null ['n', 'u', 'l', 'l']
  | bool (b : Bool) :
      Spelled (.bool b) (if b then ['t', 'r', 'u', 'e'] else ['f', 'a', 'l', 's', 'e'])
  | number {n : Numeral} {cs : List Char} (h : n.Spelled cs) : Spelled (.number n) cs
  | text {ps : List Piece} {css : List (List Char)} (h : List.Forall₂ Piece.Spelled ps css) :
      Spelled (.text ps) ('"' :: (css.flatten ++ ['"']))
  | openArray : Spelled .openArray ['[']
  | closeArray : Spelled .closeArray [']']
  | openObject : Spelled .openObject ['{']
  | closeObject : Spelled .closeObject ['}']
  | comma : Spelled .comma [',']
  | colon : Spelled .colon [':']

/-- The spellings of tokens in a row, with white space before, between and behind them. -/
inductive AllSpelled : List Token → List Char → Prop where
  | nil {blank : List Char} (hblank : IsBlank blank) : AllSpelled [] blank
  | cons {t : Token} {ts : List Token} {blank cs rest : List Char} (hblank : IsBlank blank)
      (ht : t.Spelled cs) (hts : AllSpelled ts rest) : AllSpelled (t :: ts) (blank ++ cs ++ rest)

theorem State.Reads.blank {cs : List Char} (h : IsBlank cs) :
    State.between.Reads cs [] .between := by
  induction cs with
  | nil => exact nil _
  | cons c cs ih =>
      have hc : State.between.step c = .next [] .between := if_pos (h c List.mem_cons_self)
      exact silent hc (ih fun d hd => h d (List.mem_cons_of_mem c hd))

/-- Of numbers, it takes more to know that they are complete. -/
def Token.isNumber : Token → Bool
  | .number _ => true
  | _ => false

theorem Token.Spelled.reads {t : Token} {cs : List Char} (h : t.Spelled cs)
    (ht : t.isNumber = false) : State.between.Reads cs [t] .between := by
  cases h with
  | null => exact .silent rfl (.silent rfl (.silent rfl (.one rfl)))
  | bool b =>
      cases b with
      | false => exact .silent rfl (.silent rfl (.silent rfl (.silent rfl (.one rfl))))
      | true => exact .silent rfl (.silent rfl (.silent rfl (.one rfl)))
  | number h => exact nomatch ht
  | @text ps css h =>
      have closing : (State.text (ps.reverse ++ [])).Reads ['"'] [.text ps] .between := by
        refine .one ?_
        rw [List.append_nil, State.step, if_pos rfl, List.reverse_reverse]
      exact .silent rfl ((State.Reads.pieces h []).append closing)
  | openArray | closeArray | openObject | closeObject | comma | colon => exact .one rfl

/-! ## The ends of numbers -/

/-- The token cannot be taken for a part of the number before it. -/
def Token.endsNumber : Token → Bool
  | .comma | .closeArray | .closeObject => true
  | _ => false

/-- White space, a comma and a closing bracket end a number and are read as ever. -/
theorem State.run_number {part : NumberPart} (hpart : part.mayEnd = true) {c : Char}
    (hc : isSpace c = true ∨ c = ',' ∨ c = ']' ∨ c = '}') (n : Numeral) (cs : List Char) :
    State.run (.number part n) (c :: cs) = .number n :: State.between.run (c :: cs) := by
  have hc : c = ' ' ∨ c = '\n' ∨ c = '\t' ∨ c = '\r' ∨ c = ',' ∨ c = ']' ∨ c = '}' := by
    simpa [isSpace, or_assoc] using hc
  rcases hc with rfl | rfl | rfl | rfl | rfl | rfl | rfl <;>
    cases part <;> first | rfl | cases hpart

theorem State.run_number_spelled {part : NumberPart} (hpart : part.mayEnd = true)
    {ts : List Token} {cs : List Char} (h : AllSpelled ts cs)
    (hhead : ∀ t ∈ ts.head?, t.endsNumber = true) (n : Numeral) :
    State.run (.number part n) cs = .number n :: State.between.run cs := by
  cases h with
  | nil hblank =>
      cases cs with
      | nil => rw [run, finish, if_pos hpart]; rfl
      | cons c cs => exact run_number hpart (Or.inl (hblank c List.mem_cons_self)) n cs
  | @cons t ts blank cs rest hblank ht hts =>
      cases blank with
      | cons c blank => exact run_number hpart (Or.inl (hblank c List.mem_cons_self)) n _
      | nil =>
          have hends := hhead t rfl
          cases ht with
          | closeArray => exact run_number hpart (Or.inr (Or.inr (Or.inl rfl))) n rest
          | closeObject => exact run_number hpart (Or.inr (Or.inr (Or.inr rfl))) n rest
          | comma => exact run_number hpart (Or.inr (Or.inl rfl)) n rest
          | null | bool | number | text | openArray | openObject | colon => cases hends

/-- The two tokens can be told apart without white space between them. -/
def Token.Apart (t u : Token) : Prop := t.isNumber = true → u.endsNumber = true

/-- However tokens are spelled, they are what the text is cut into, if they can be told apart. -/
theorem State.run_of_allSpelled {ts : List Token} {cs : List Char} (h : AllSpelled ts cs)
    (hapart : ts.IsChain Token.Apart) : State.between.run cs = ts := by
  induction h with
  | nil hblank =>
      have := State.Reads.blank hblank []
      rwa [List.append_nil] at this
  | @cons t ts blank cs rest hblank ht hts ih =>
      obtain ⟨hhead, htail⟩ := List.isChain_cons.mp hapart
      have ih := ih htail
      rw [List.append_assoc, State.Reads.blank hblank, List.nil_append]
      cases hnumber : t.isNumber with
      | false =>
          rw [ht.reads hnumber, ih]
          rfl
      | true =>
          cases ht with
          | @number n cs h =>
              obtain ⟨part, hpart, hreads⟩ := h.reads
              rw [hreads, State.run_number_spelled hpart hts fun u hu => hhead u hu rfl, ih]
              rfl
          | null | bool | text | openArray | closeArray | openObject | closeObject | comma
          | colon => exact nomatch hnumber

/-! ## Documents -/

/-- Behind the tokens of the tree, further tokens can be told apart if the first of them ends a
    number. -/
def Tree.KeepsApart (t : Tree) : Prop :=
  ∀ rest : List Token, rest.IsChain Token.Apart → (∀ u ∈ rest.head?, u.endsNumber = true) →
    (t.tokens ++ rest).IsChain Token.Apart

/-- Behind a token that is no number every token can be told apart. -/
theorem isChain_cons_of_not_number {t : Token} (ht : t.isNumber = false) {ts : List Token}
    (h : ts.IsChain Token.Apart) : (t :: ts).IsChain Token.Apart :=
  h.cons fun _ _ hnumber => nomatch ht.symm.trans hnumber

theorem isChain_moreItems {items : List Tree} (h : ∀ t ∈ items, t.KeepsApart) {rest : List Token}
    (hrest : rest.IsChain Token.Apart) :
    (moreItemTokens items ++ rest).IsChain Token.Apart ∧
      ∀ u ∈ (moreItemTokens items ++ rest).head?, u.endsNumber = true := by
  induction items with
  | nil =>
      refine ⟨isChain_cons_of_not_number rfl hrest, ?_⟩
      rintro u ⟨⟩
      rfl
  | cons t items ih =>
      obtain ⟨hmore, hhead⟩ := ih fun u hu => h u (List.mem_cons_of_mem t hu)
      rw [moreItemTokens, List.cons_append, List.append_assoc]
      refine ⟨isChain_cons_of_not_number rfl (h t List.mem_cons_self _ hmore hhead), ?_⟩
      rintro u ⟨⟩
      rfl

theorem isChain_moreMembers {members : List (List Piece × Tree)}
    (h : ∀ m ∈ members, m.2.KeepsApart) {rest : List Token} (hrest : rest.IsChain Token.Apart) :
    (moreMemberTokens members ++ rest).IsChain Token.Apart ∧
      ∀ u ∈ (moreMemberTokens members ++ rest).head?, u.endsNumber = true := by
  induction members with
  | nil =>
      refine ⟨isChain_cons_of_not_number rfl hrest, ?_⟩
      rintro u ⟨⟩
      rfl
  | cons m members ih =>
      obtain ⟨key, t⟩ := m
      obtain ⟨hmore, hhead⟩ := ih fun u hu => h u (List.mem_cons_of_mem _ hu)
      have hvalue := h (key, t) List.mem_cons_self _ hmore hhead
      rw [moreMemberTokens, List.cons_append, List.cons_append, List.cons_append,
        List.append_assoc]
      refine ⟨isChain_cons_of_not_number rfl (isChain_cons_of_not_number rfl
        (isChain_cons_of_not_number rfl hvalue)), ?_⟩
      rintro u ⟨⟩
      rfl

theorem Tree.keepsApart (t : Tree) : t.KeepsApart := by
  induction t with
  | null | bool | text | broken => exact fun rest hrest _ => isChain_cons_of_not_number rfl hrest
  | number n => exact fun rest hrest hhead => hrest.cons fun u hu _ => hhead u hu
  | array items closed ih =>
      intro rest hrest hhead
      rw [tokens, List.cons_append]
      refine isChain_cons_of_not_number rfl ?_
      cases items with
      | nil => exact isChain_cons_of_not_number rfl hrest
      | cons t items =>
          obtain ⟨hmore, hends⟩ :=
            isChain_moreItems (fun u hu => ih u (List.mem_cons_of_mem t hu)) hrest
          rw [itemTokens, List.append_assoc]
          exact ih t List.mem_cons_self _ hmore hends
  | object members closed ih =>
      intro rest hrest hhead
      rw [tokens, List.cons_append]
      refine isChain_cons_of_not_number rfl ?_
      cases members with
      | nil => exact isChain_cons_of_not_number rfl hrest
      | cons m members =>
          obtain ⟨key, t⟩ := m
          obtain ⟨hmore, hends⟩ :=
            isChain_moreMembers (fun u hu => ih u (List.mem_cons_of_mem _ hu)) hrest
          rw [memberTokens, List.cons_append, List.cons_append, List.append_assoc]
          exact isChain_cons_of_not_number rfl (isChain_cons_of_not_number rfl
            (ih (key, t) List.mem_cons_self _ hmore hends))

/-- **However a document is spelled, it is read as itself.** A text that spells the tokens of a
    sound tree, with any white space between them, is read as this tree, and nothing follows. -/
theorem Tree.read_of_allSpelled {t : Tree} (h : t.intact = true) {text : String}
    (htext : AllSpelled t.tokens text.toList) : Tree.read (Json.tokens text) = (t, []) := by
  have hapart := t.keepsApart [] .nil nofun
  rw [List.append_nil] at hapart
  rw [Json.tokens, State.run_of_allSpelled htext hapart, Tree.read_tokens h]

end Scaffold.Json
