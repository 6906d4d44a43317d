import Scaffold.Json.Tree
import Scaffold.Proofs.Json.CutTokens

/-!
# Texts that are cut off

  A text and a longer one that begins with it are built alike up to the cut. So
  either both have the same document and the longer text has something behind
  it, or the tree of the shorter text is the tree of the longer one cut off:
  down to the cut the same items and members, and no array or object closed.
-/

namespace Scaffold.Json

/-! ## Trees at a cut -/

/-- The first tree is what is left of the second one where its text is cut off. -/
inductive Tree.CutOf : Tree → Tree → Prop where
  | broken {v : Tree} : CutOf .broken v
  | number {n m : Numeral} : CutOf (.number n) (.number m)
  | unfinishedNumber {n : Numeral} : CutOf (.number n) .broken
  /-- The cut is between items. -/
  | array {items more : List Tree} {closed : Bool} :
      CutOf (.array items false) (.array (items ++ more) closed)
  /-- Something that is no item stands where items may follow. -/
  | noItem {items more : List Tree} {closed : Bool} :
      CutOf (.array (items ++ [.broken]) false) (.array (items ++ more) closed)
  | item {items more : List Tree} {u v : Tree} {closed : Bool} (h : CutOf u v) :
      CutOf (.array (items ++ [u]) false) (.array (items ++ v :: more) closed)
  /-- The cut is between members. -/
  | object {members more : List (List Piece × Tree)} {closed : Bool} :
      CutOf (.object members false) (.object (members ++ more) closed)
  | member {members more : List (List Piece × Tree)} {key : List Piece} {u v : Tree}
      {closed : Bool} (h : CutOf u v) :
      CutOf (.object (members ++ [(key, u)]) false) (.object (members ++ (key, v) :: more) closed)

/-- The tree that comes of a value inside of frames, whatever stands behind the value. -/
inductive Fills : Tree → List Frame → Tree → Prop where
  | top {v : Tree} : Fills v [] v
  | array {v : Tree} {items more : List Tree} {closed : Bool} {fs : List Frame} {w : Tree}
      (h : Fills (.array (items.reverse ++ v :: more) closed) fs w) : Fills v (.array items :: fs) w
  | object {v : Tree} {members more : List (List Piece × Tree)} {key : List Piece}
      {closed : Bool} {fs : List Frame} {w : Tree}
      (h : Fills (.object (members.reverse ++ (key, v) :: more) closed) fs w) :
      Fills v (.object members key :: fs) w

theorem abandon_array (v : Tree) (items : List Tree) (fs : List Frame) :
    abandon v (.array items :: fs) = abandon (.array (items.reverse ++ [v]) false) fs := by
  rw [← List.reverse_cons]
  rfl

theorem abandon_object (v : Tree) (members : List (List Piece × Tree)) (key : List Piece)
    (fs : List Frame) : abandon v (.object members key :: fs) =
      abandon (.object (members.reverse ++ [(key, v)]) false) fs := by
  rw [← List.reverse_cons]
  rfl

theorem fills_abandon (v : Tree) (fs : List Frame) : Fills v fs (abandon v fs) := by
  induction fs generalizing v with
  | nil => exact .top
  | cons f fs ih =>
      cases f with
      | array items =>
          rw [abandon_array]
          exact .array (ih _)
      | object members key =>
          rw [abandon_object]
          exact .object (ih _)

/-- A cut value inside of frames is the whole cut off. -/
theorem Fills.cutOf {u v w : Tree} {fs : List Frame} (h : Fills v fs w) (hcut : u.CutOf v) :
    (abandon u fs).CutOf w := by
  induction h generalizing u with
  | top => exact hcut
  | array _ ih =>
      rw [abandon_array]
      exact ih (.item hcut)
  | object _ ih =>
      rw [abandon_object]
      exact ih (.member hcut)

/-- So is a value that is not cut, if the frames are not closed behind it. -/
theorem Fills.cutOf_self {v w : Tree} {f : Frame} {fs : List Frame} (h : Fills v (f :: fs) w) :
    (abandon v (f :: fs)).CutOf w := by
  cases h with
  | array h =>
      rw [abandon_array]
      rw [List.append_cons] at h
      exact h.cutOf .array
  | object h =>
      rw [abandon_object]
      rw [List.append_cons] at h
      exact h.cutOf .object

/-! ## Building at a cut -/

/-- The values to which an expectation may lead. -/
def Expect.Allows : Expect → Tree → Prop
  | .value, _ | .colon, _ => True
  | .item, v => ∃ items closed, v = .array items closed
  | .key, v => ∃ members closed, v = .object members closed
  | .nextKey members, v => ∃ more closed, v = .object (members.reverse ++ more) closed
  | .after u, v => v = u

/-- Whatever the tokens, a value that was expected fills the frames. -/
theorem exists_fills_build (e : Expect) (fs : List Frame) (ts : List Token) :
    ∃ v, e.Allows v ∧ Fills v fs (build e fs ts).1 := by
  fun_induction build e fs ts with
  | case1 v _ => exact ⟨v, rfl, .top⟩
  -- a comma or a bracket behind a value
  | case2 v items fs _ ih =>
      obtain ⟨_, -, hfills⟩ := ih
      cases hfills with
      | array h =>
          rw [List.reverse_cons, List.append_assoc] at h
          exact ⟨v, rfl, .array h⟩
  | case3 v items fs _ ih =>
      obtain ⟨_, rfl, h⟩ := ih
      rw [List.reverse_cons] at h ⊢
      exact ⟨v, rfl, .array h⟩
  | case4 v members key fs _ ih =>
      obtain ⟨_, ⟨more, closed, rfl⟩, h⟩ := ih
      rw [List.reverse_cons, List.append_assoc] at h
      exact ⟨v, rfl, .object h⟩
  | case5 v members key fs _ ih =>
      obtain ⟨_, rfl, h⟩ := ih
      rw [List.reverse_cons] at h ⊢
      exact ⟨v, rfl, .object h⟩
  | case6 _ v => exact ⟨v, rfl, fills_abandon _ _⟩
  -- empty arrays and objects
  | case7 fs _ ih =>
      obtain ⟨_, rfl, h⟩ := ih
      exact ⟨_, ⟨[], true, rfl⟩, h⟩
  | case8 fs _ ih =>
      obtain ⟨_, rfl, h⟩ := ih
      exact ⟨_, ⟨[], true, rfl⟩, h⟩
  -- keys and colons
  | case9 fs k _ ih =>
      obtain ⟨_, -, hfills⟩ := ih
      cases hfills with
      | object h => exact ⟨_, ⟨_, _, rfl⟩, h⟩
  | case10 => exact ⟨_, ⟨[], false, rfl⟩, fills_abandon _ _⟩
  | case11 members fs k _ ih =>
      obtain ⟨_, -, hfills⟩ := ih
      cases hfills with
      | object h => exact ⟨_, ⟨_, _, rfl⟩, h⟩
  | case12 _ members => exact ⟨_, ⟨[], false, by rw [List.append_nil]⟩, fills_abandon _ _⟩
  | case13 fs _ ih =>
      obtain ⟨v, -, h⟩ := ih
      exact ⟨v, trivial, h⟩
  | case14 => exact ⟨_, trivial, fills_abandon _ _⟩
  -- values
  | case15 fs t _ _ e _ ih =>
      obtain ⟨_, -, hfills⟩ := ih
      cases hfills with
      | array h => exact ⟨_, ⟨_, _, rfl⟩, h⟩
  | case16 => exact ⟨_, ⟨_, _, rfl⟩, fills_abandon _ _⟩
  | case17 => exact ⟨_, ⟨_, _, rfl⟩, fills_abandon _ _⟩
  | case18 fs t _ e _ ih =>
      obtain ⟨v, -, h⟩ := ih
      exact ⟨v, trivial, h⟩
  | case19 => exact ⟨_, trivial, fills_abandon _ _⟩
  | case20 => exact ⟨_, trivial, fills_abandon _ _⟩

/-- The document is not complete. -/
def Expect.Open (e : Expect) (fs : List Frame) : Prop := ∀ v, e = .after v → fs ≠ []

theorem build_after_nil (v : Tree) (fs : List Frame) : build (.after v) fs [] = (abandon v fs, []) := by
  cases fs with
  | nil => rfl
  | cons f fs => cases f <;> rfl

/-- Where nothing more comes, the document is cut off. -/
theorem cutOf_build_nil {e : Expect} {fs : List Frame} (hopen : e.Open fs) (ts : List Token) :
    (build e fs []).1.CutOf (build e fs ts).1 := by
  obtain ⟨v, hv, h⟩ := exists_fills_build e fs ts
  cases e with
  | value | colon => exact h.cutOf .broken
  | item =>
      obtain ⟨items, closed, rfl⟩ := hv
      exact h.cutOf (@Tree.CutOf.array [] items closed)
  | key =>
      obtain ⟨members, closed, rfl⟩ := hv
      exact h.cutOf (@Tree.CutOf.object [] members closed)
  | nextKey members =>
      obtain ⟨more, closed, rfl⟩ := hv
      exact h.cutOf .object
  | after u =>
      cases hv
      cases fs with
      | nil => exact absurd rfl (hopen _ rfl)
      | cons f fs =>
          rw [build_after_nil]
          exact h.cutOf_self

/-- Something that is no value is passed over, or it stands where an item may follow. -/
theorem cutOf_build_broken {e : Expect} {fs : List Frame} (hopen : e.Open fs) (ts : List Token) :
    (build e fs [.broken]).1.CutOf (build e fs ts).1 := by
  have hnil := cutOf_build_nil hopen ts
  cases e with
  | item =>
      obtain ⟨v, ⟨items, closed, rfl⟩, h⟩ := exists_fills_build .item fs ts
      exact h.cutOf (@Tree.CutOf.noItem [] items closed)
  | value | colon | key | nextKey => exact hnil
  | after v =>
      cases fs with
      | nil => exact hnil
      | cons f fs => cases f <;> exact hnil

/-- A number stands for a cut value where a value may stand, and otherwise nothing does. -/
theorem cutOf_build_number {e : Expect} {fs : List Frame} (hopen : e.Open fs) {n : Numeral}
    {ts : List Token} (h : Ends [.number n] ts) :
    (build e fs [.number n]).1.CutOf (build e fs ts).1 := by
  have hnil := cutOf_build_nil hopen ts
  have hvalue : ∀ fs, (build .value fs [.number n]).1.CutOf (build .value fs ts).1 := by
    intro fs
    rw [show build .value fs [.number n] = (abandon (.number n) fs, []) from build_after_nil _ fs]
    cases h with
    | @number _ m ts =>
        obtain ⟨_, rfl, hfills⟩ := exists_fills_build (.after (.number m)) fs ts
        exact hfills.cutOf .number
    | unfinishedNumber => exact (fills_abandon .broken fs).cutOf .unfinishedNumber
  cases e with
  | value => exact hvalue fs
  | item =>
      have hitem := hvalue (.array [] :: fs)
      cases h <;> exact hitem
  | colon | key | nextKey => exact hnil
  | after v =>
      cases fs with
      | nil => exact hnil
      | cons f fs => cases f <;> exact hnil

theorem cutOf_build {e : Expect} {fs : List Frame} (hopen : e.Open fs) {fin more : List Token}
    (h : Ends fin more) : (build e fs fin).1.CutOf (build e fs more).1 := by
  cases h with
  | between => exact cutOf_build_nil hopen _
  | broken => exact cutOf_build_broken hopen _
  | number => exact cutOf_build_number hopen .number
  | unfinishedNumber => exact cutOf_build_number hopen .unfinishedNumber

/-- One token is behind the document, leads to another expectation, or ends the reading. -/
theorem build_cons (e : Expect) (fs : List Frame) (t : Token) :
    (∃ v, e = .after v ∧ fs = []) ∨
      (∃ e' fs', ∀ ts, build e fs (t :: ts) = build e' fs' ts) ∨
      ∃ u : Tree, u.CutOf u ∧ ∀ ts, build e fs (t :: ts) = (u, []) := by
  have hbroken : ∀ fs, (abandon .broken fs).CutOf (abandon .broken fs) := fun fs =>
    (fills_abandon .broken fs).cutOf .broken
  have hobject : ∀ members, (abandon (.object members false) fs).CutOf
      (abandon (.object members false) fs) := by
    intro members
    have hself := @Tree.CutOf.object members [] false
    rw [List.append_nil] at hself
    exact (fills_abandon _ fs).cutOf hself
  cases e with
  | after v =>
      cases fs with
      | nil => exact Or.inl ⟨v, rfl, rfl⟩
      | cons f fs =>
          have hself := (fills_abandon v (f :: fs)).cutOf_self
          cases f with
          | array items =>
              cases t with
              | comma | closeArray => exact Or.inr (Or.inl ⟨_, _, fun _ => rfl⟩)
              | null | bool | number | text | openArray | openObject | closeObject | colon
                | broken => exact Or.inr (Or.inr ⟨_, hself, fun _ => rfl⟩)
          | object members key =>
              cases t with
              | comma | closeObject => exact Or.inr (Or.inl ⟨_, _, fun _ => rfl⟩)
              | null | bool | number | text | openArray | openObject | closeArray | colon
                | broken => exact Or.inr (Or.inr ⟨_, hself, fun _ => rfl⟩)
  | value =>
      cases t with
      | null | bool | number | text | openArray | openObject =>
          exact Or.inr (Or.inl ⟨_, _, fun _ => rfl⟩)
      | closeArray | closeObject | comma | colon | broken =>
          exact Or.inr (Or.inr ⟨_, hbroken fs, fun _ => rfl⟩)
  | item =>
      cases t with
      | null | bool | number | text | openArray | openObject | closeArray =>
          exact Or.inr (Or.inl ⟨_, _, fun _ => rfl⟩)
      | closeObject | comma | colon | broken =>
          exact Or.inr (Or.inr ⟨_, hbroken (.array [] :: fs), fun _ => rfl⟩)
  | key =>
      cases t with
      | text | closeObject => exact Or.inr (Or.inl ⟨_, _, fun _ => rfl⟩)
      | null | bool | number | openArray | openObject | closeArray | comma | colon | broken =>
          exact Or.inr (Or.inr ⟨_, hobject [], fun _ => rfl⟩)
  | nextKey members =>
      cases t with
      | text => exact Or.inr (Or.inl ⟨_, _, fun _ => rfl⟩)
      | null | bool | number | openArray | openObject | closeArray | closeObject | comma | colon
        | broken => exact Or.inr (Or.inr ⟨_, hobject members.reverse, fun _ => rfl⟩)
  | colon =>
      cases t with
      | colon => exact Or.inr (Or.inl ⟨_, _, fun _ => rfl⟩)
      | null | bool | number | text | openArray | openObject | closeArray | closeObject | comma
        | broken => exact Or.inr (Or.inr ⟨_, hbroken fs, fun _ => rfl⟩)

/-- Up to a cut two documents are built alike. They are complete by then, or the shorter one is
    cut off. -/
theorem build_append (e : Expect) (fs : List Frame) (ts : List Token) {fin more : List Token}
    (h : Ends fin more) :
    (∃ v rest, build e fs (ts ++ fin) = (v, rest ++ fin) ∧
      build e fs (ts ++ more) = (v, rest ++ more)) ∨
      (build e fs (ts ++ fin)).1.CutOf (build e fs (ts ++ more)).1 := by
  induction ts generalizing e fs with
  | nil =>
      by_cases hdone : ∃ v, e = .after v ∧ fs = []
      · obtain ⟨v, rfl, rfl⟩ := hdone
        exact Or.inl ⟨v, [], by rw [List.nil_append, build], by rw [List.nil_append, build]⟩
      · exact Or.inr (cutOf_build (fun v hv hfs => hdone ⟨v, hv, hfs⟩) h)
  | cons t ts ih =>
      rw [List.cons_append, List.cons_append]
      rcases build_cons e fs t with ⟨v, rfl, rfl⟩ | ⟨e', fs', hnext⟩ | ⟨u, hself, hstop⟩
      · exact Or.inl ⟨v, t :: ts, rfl, rfl⟩
      · rw [hnext, hnext]
        exact ih e' fs'
      · rw [hstop, hstop]
        exact Or.inr hself

/-! ## Documents at a cut -/

/-- **Cut texts**: if more than white space is taken from the end of a text, its tree is cut off,
    or the document was complete before and the text went on behind it. -/
theorem Tree.read_append (p : String) {r : String} (h : ∃ c ∈ r.toList, isSpace c = false) :
    ((Tree.read (Json.tokens p)).1 = (Tree.read (Json.tokens (p ++ r))).1 ∧
      (Tree.read (Json.tokens (p ++ r))).2 ≠ []) ∨
      (Tree.read (Json.tokens p)).1.CutOf (Tree.read (Json.tokens (p ++ r))).1 := by
  obtain ⟨ts, fin, more, hp, hpr, hends⟩ := State.between.exists_ends p.toList h
  have hmore : more ≠ [] := by
    cases hends with
    | between h => exact h
    | broken h => exact h
    | number | unfinishedNumber => exact List.cons_ne_nil _ _
  rw [Json.tokens, Json.tokens, String.toList_append, hp, hpr]
  refine (build_append .value [] ts hends).imp_left ?_
  rintro ⟨v, rest, hshort, hlong⟩
  rw [read, read, hshort, hlong]
  exact ⟨rfl, List.append_ne_nil_of_right_ne_nil rest hmore⟩

end Scaffold.Json
