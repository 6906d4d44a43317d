import Scaffold.Json.Tree
import Scaffold.Proofs.Json.Scan

/-!
# Documents and their tokens

  A sound tree has one token list without further tokens, and building a tree
  from this list gives the tree back. The heart is that a value inside frames
  is built as if it stood alone: the tokens of the value bring the builder from
  the place where a value is expected to the place behind the value, with the
  frames untouched. What this library writes is the token list of such a tree.
-/

namespace Scaffold.Json

/-! ## Induction -/

/-- The value of a member is smaller than the members. -/
theorem sizeOf_snd_lt_of_mem {α β : Type} [SizeOf α] [SizeOf β] {m : α × β} {ms : List (α × β)}
    (h : m ∈ ms) : sizeOf m.2 < sizeOf ms := by
  have hlt := List.sizeOf_lt_of_mem h
  have hsize : sizeOf m = 1 + sizeOf m.1 + sizeOf m.2 := by
    cases m
    rfl
  omega

/-- Induction on trees: what holds of all parts of a tree holds of the tree. -/
@[elab_as_elim, induction_eliminator]
theorem Tree.induction {motive : Tree → Prop} (null : motive .null)
    (bool : ∀ b, motive (.bool b)) (number : ∀ n, motive (.number n))
    (text : ∀ ps, motive (.text ps))
    (array : ∀ items closed, (∀ t ∈ items, motive t) → motive (.array items closed))
    (object : ∀ members closed, (∀ m ∈ members, motive m.2) → motive (.object members closed))
    (broken : motive .broken) (t : Tree) : motive t :=
  match t with
  | .null => null
  | .bool b => bool b
  | .number n => number n
  | .text ps => text ps
  | .array items closed => array items closed fun t _ =>
      Tree.induction null bool number text array object broken t
  | .object members closed => object members closed fun m _ =>
      Tree.induction null bool number text array object broken m.2
  | .broken => broken
termination_by t
decreasing_by
  · have hlt := List.sizeOf_lt_of_mem ‹_ ∈ items›
    simp only [Tree.array.sizeOf_spec]
    omega
  · have hlt := sizeOf_snd_lt_of_mem ‹_ ∈ members›
    simp only [Tree.object.sizeOf_spec]
    omega

/-- Induction on the values that are written. -/
@[elab_as_elim, induction_eliminator]
theorem Value.induction {motive : Value → Prop} (null : motive .null)
    (text : ∀ s, motive (.text s))
    (array : ∀ items, (∀ v ∈ items, motive v) → motive (.array items))
    (object : ∀ members, (∀ m ∈ members, motive m.2) → motive (.object members))
    (v : Value) : motive v :=
  match v with
  | .null => null
  | .text s => text s
  | .array items => array items fun v _ => Value.induction null text array object v
  | .object members => object members fun m _ => Value.induction null text array object m.2
termination_by v
decreasing_by
  · have hlt := List.sizeOf_lt_of_mem ‹_ ∈ items›
    simp only [Value.array.sizeOf_spec]
    omega
  · have hlt := sizeOf_snd_lt_of_mem ‹_ ∈ members›
    simp only [Value.object.sizeOf_spec]
    omega

/-! ## Soundness -/

theorem intactItems_iff {ts : List Tree} : intactItems ts = true ↔ ∀ t ∈ ts, t.intact = true := by
  induction ts with
  | nil => simp [intactItems]
  | cons t ts ih => simp [intactItems, ih]

theorem intactMembers_iff {ms : List (List Piece × Tree)} :
    intactMembers ms = true ↔ ∀ m ∈ ms, m.2.intact = true := by
  induction ms with
  | nil => simp [intactMembers]
  | cons m ms ih => simp [intactMembers, ih]

/-! ## The tokens of a tree -/

mutual

/-- The tokens of a tree that is sound. -/
def Tree.tokens : Tree → List Token
  | .null => [.null]
  | .bool b => [.bool b]
  | .number n => [.number n]
  | .text ps => [.text ps]
  | .array items _ => .openArray :: itemTokens items
  | .object members _ => .openObject :: memberTokens members
  | .broken => [.broken]

/-- The items of an array and its end. -/
def itemTokens : List Tree → List Token
  | [] => [.closeArray]
  | t :: ts => t.tokens ++ moreItemTokens ts

/-- Further items of an array and its end. -/
def moreItemTokens : List Tree → List Token
  | [] => [.closeArray]
  | t :: ts => .comma :: (t.tokens ++ moreItemTokens ts)

/-- The members of an object and its end. -/
def memberTokens : List (List Piece × Tree) → List Token
  | [] => [.closeObject]
  | (key, t) :: ms => .text key :: .colon :: (t.tokens ++ moreMemberTokens ms)

/-- Further members of an object and its end. -/
def moreMemberTokens : List (List Piece × Tree) → List Token
  | [] => [.closeObject]
  | (key, t) :: ms => .comma :: .text key :: .colon :: (t.tokens ++ moreMemberTokens ms)

end

theorem itemTokens_eq (ts : List Tree) :
    itemTokens ts = [.comma].intercalate (ts.map Tree.tokens) ++ [.closeArray] := by
  induction ts with
  | nil => rfl
  | cons t ts ih =>
      cases ts with
      | nil =>
          rw [List.map_singleton, List.intercalate_singleton]
          rfl
      | cons u us =>
          rw [List.map_cons, List.map_cons, List.intercalate_cons_cons, List.append_assoc,
            List.append_assoc]
          exact congrArg (t.tokens ++ .comma :: ·) ih

theorem memberTokens_eq (ms : List (List Piece × Tree)) :
    memberTokens ms = [.comma].intercalate (ms.map fun m => .text m.1 :: .colon :: m.2.tokens) ++
      [.closeObject] := by
  induction ms with
  | nil => rfl
  | cons m ms ih =>
      obtain ⟨key, t⟩ := m
      cases ms with
      | nil =>
          rw [List.map_singleton, List.intercalate_singleton]
          rfl
      | cons n ms =>
          rw [List.map_cons, List.map_cons, List.intercalate_cons_cons, List.append_assoc,
            List.append_assoc]
          exact congrArg (.text key :: .colon :: t.tokens ++ .comma :: ·) ih

/-- The tokens of a sound tree begin a value. -/
theorem Tree.tokens_begin {t : Tree} (h : t.intact = true) :
    ∃ first rest, t.tokens = first :: rest ∧ first ≠ .closeArray := by
  cases t with
  | broken => exact absurd h (by decide)
  | null | bool | number | text | array | object => exact ⟨_, _, rfl, nofun⟩

/-- The first item of an array is built like every other value. -/
theorem build_item {t : Token} (h : t ≠ .closeArray) (fs : List Frame) (ts : List Token) :
    build .item fs (t :: ts) = build .value (.array [] :: fs) (t :: ts) := by
  cases t with
  | closeArray => exact absurd rfl h
  | null | bool | number | text | openArray | openObject | closeObject | comma | colon
    | broken => rfl

/-! ## Building a tree from its tokens -/

/-- The value of these tokens is built inside frames as if it stood alone. -/
def Tree.Builds (t : Tree) : Prop :=
  ∀ fs ts, build .value fs (t.tokens ++ ts) = build (.after t) fs ts

/-- What is built behind an item of an array. -/
theorem build_moreItems {items : List Tree} (h : ∀ t ∈ items, t.Builds) (acc : List Tree)
    (v : Tree) (fs : List Frame) (ts : List Token) :
    build (.after v) (.array acc :: fs) (moreItemTokens items ++ ts) =
      build (.after (.array (acc.reverse ++ v :: items) true)) fs ts := by
  induction items generalizing acc v with
  | nil =>
      rw [← List.reverse_cons]
      rfl
  | cons t items ih =>
      have ht := h t List.mem_cons_self
      have ih := ih (fun u hu => h u (List.mem_cons_of_mem t hu)) (v :: acc) t
      rw [moreItemTokens, List.cons_append, List.append_assoc, build, ht, ih, List.reverse_cons,
        List.append_assoc]
      rfl

/-- What is built behind the value of a member of an object. -/
theorem build_moreMembers {members : List (List Piece × Tree)} (h : ∀ m ∈ members, m.2.Builds)
    (acc : List (List Piece × Tree)) (key : List Piece) (v : Tree) (fs : List Frame)
    (ts : List Token) :
    build (.after v) (.object acc key :: fs) (moreMemberTokens members ++ ts) =
      build (.after (.object (acc.reverse ++ (key, v) :: members) true)) fs ts := by
  induction members generalizing acc key v with
  | nil =>
      rw [← List.reverse_cons]
      rfl
  | cons m members ih =>
      obtain ⟨k, t⟩ := m
      have ht : t.Builds := h (k, t) List.mem_cons_self
      have ih := ih (fun m hm => h m (List.mem_cons_of_mem (k, t) hm)) ((key, v) :: acc) k t
      rw [moreMemberTokens, List.cons_append, List.cons_append, List.cons_append,
        List.append_assoc, build, build, build, ht, ih, List.reverse_cons, List.append_assoc]
      rfl

theorem Tree.builds_of_intact {t : Tree} (h : t.intact = true) : t.Builds := by
  induction t with
  | null | bool | number | text => intro fs ts; rfl
  | array items closed ih =>
      obtain ⟨rfl, hi⟩ : closed = true ∧ intactItems items = true := by
        simpa [intact] using h
      have hi := intactItems_iff.mp hi
      have ih : ∀ t ∈ items, t.Builds := fun t ht => ih t ht (hi t ht)
      intro fs ts
      cases items with
      | nil => rfl
      | cons t items =>
          have ht := ih t List.mem_cons_self
          -- behind the bracket the array may also end, so the first item has to begin a value
          obtain ⟨first, rest, heq, hfirst⟩ := tokens_begin (hi t List.mem_cons_self)
          have step : build .value fs ((Tree.array (t :: items) true).tokens ++ ts) =
              build .item fs (t.tokens ++ (moreItemTokens items ++ ts)) := by
            rw [← List.append_assoc]
            rfl
          rw [step, heq, List.cons_append, build_item hfirst, ← List.cons_append, ← heq, ht,
            build_moreItems fun u hu => ih u (List.mem_cons_of_mem t hu)]
          rfl
  | object members closed ih =>
      obtain ⟨rfl, hm⟩ : closed = true ∧ intactMembers members = true := by
        simpa [intact] using h
      have hm := intactMembers_iff.mp hm
      have ih : ∀ m ∈ members, m.2.Builds := fun m h => ih m h (hm m h)
      intro fs ts
      cases members with
      | nil => rfl
      | cons m members =>
          obtain ⟨key, t⟩ := m
          have ht : t.Builds := ih (key, t) List.mem_cons_self
          have step : build .value fs ((Tree.object ((key, t) :: members) true).tokens ++ ts) =
              build .value (.object [] key :: fs) (t.tokens ++ (moreMemberTokens members ++ ts)) := by
            rw [← List.append_assoc]
            rfl
          rw [step, ht, build_moreMembers fun m hm => ih m (List.mem_cons_of_mem (key, t) hm)]
          rfl
  | broken => exact absurd h (by decide)

/-- A sound tree is read from its tokens, and nothing is left over. -/
theorem Tree.read_tokens {t : Tree} (h : t.intact = true) : Tree.read t.tokens = (t, []) := by
  have := builds_of_intact h [] []
  rw [List.append_nil] at this
  rw [read, this]
  rfl

/-! ## What is written -/

mutual

/-- The tree of a value. -/
def Value.tree : Value → Tree
  | .null => .null
  | .text s => .text (Piece.ofText s)
  | .array items => .array (itemTrees items) true
  | .object members => .object (memberTrees members) true

/-- The trees of the items of an array. -/
def Value.itemTrees : List Value → List Tree
  | [] => []
  | v :: vs => v.tree :: itemTrees vs

/-- The trees of the members of an object. -/
def Value.memberTrees : List (String × Value) → List (List Piece × Tree)
  | [] => []
  | (key, v) :: ms => (Piece.ofText key, v.tree) :: memberTrees ms

end

namespace Value

theorem itemTrees_eq_map (vs : List Value) : itemTrees vs = vs.map tree := by
  induction vs with
  | nil => rfl
  | cons v vs ih => rw [itemTrees, ih, List.map_cons]

theorem memberTrees_eq_map (ms : List (String × Value)) :
    memberTrees ms = ms.map fun m => (Piece.ofText m.1, m.2.tree) := by
  induction ms with
  | nil => rfl
  | cons m ms ih =>
      obtain ⟨key, v⟩ := m
      rw [memberTrees, ih, List.map_cons]

theorem intact_tree (v : Value) : v.tree.intact = true := by
  induction v with
  | null | text => rfl
  | array items ih =>
      have : intactItems (itemTrees items) = true := by
        rw [intactItems_iff, itemTrees_eq_map]
        exact List.forall_mem_map.mpr ih
      rw [tree, Tree.intact, this]
      rfl
  | object members ih =>
      have : intactMembers (memberTrees members) = true := by
        rw [intactMembers_iff, memberTrees_eq_map]
        exact List.forall_mem_map.mpr ih
      rw [tree, Tree.intact, this]
      rfl

theorem compactItems_eq_map (vs : List Value) : compactItems vs = vs.map compact := by
  induction vs with
  | nil => rfl
  | cons v vs ih => rw [compactItems, ih, List.map_cons]

theorem compactMembers_eq_map (ms : List (String × Value)) :
    compactMembers ms = ms.map fun m => quote m.1 ++ ":" ++ m.2.compact := by
  induction ms with
  | nil => rfl
  | cons m ms ih =>
      obtain ⟨key, v⟩ := m
      rw [compactMembers, ih, List.map_cons]

/-- Texts with commas between them. -/
theorem reads_separated {α : Type} {text : α → String} {ts : α → List Token} {as : List α}
    (h : ∀ a ∈ as, State.between.Reads (text a).toList (ts a) .between) :
    State.between.Reads (",".intercalate (as.map text)).toList ([.comma].intercalate (as.map ts))
      .between := by
  induction as with
  | nil => exact .nil _
  | cons a as ih =>
      have ha := h a List.mem_cons_self
      have ih := ih fun b hb => h b (List.mem_cons_of_mem a hb)
      -- no comma stands behind the last text
      cases as with
      | nil =>
          rw [List.map_singleton, String.intercalate_singleton, List.map_singleton,
            List.intercalate_singleton]
          exact ha
      | cons b as =>
          have comma : State.between.Reads ",".toList [.comma] .between := .one rfl
          simp only [List.map_cons, String.intercalate_cons_cons, List.intercalate_cons_cons,
            String.toList_append] at ih ⊢
          exact (ha.append comma).append ih

theorem reads_compact (v : Value) :
    State.between.Reads v.compact.toList v.tree.tokens .between := by
  induction v with
  | null => exact .silent rfl (.silent rfl (.silent rfl (.one rfl)))
  | text s => exact .quote s
  | array items ih =>
      have opening : State.between.Reads "[".toList [.openArray] .between := .one rfl
      have closing : State.between.Reads "]".toList [.closeArray] .between := .one rfl
      rw [compact, tree, Tree.tokens, itemTokens_eq, itemTrees_eq_map, compactItems_eq_map,
        List.map_map, String.toList_append, String.toList_append]
      exact (opening.append (reads_separated ih)).append closing
  | object members ih =>
      have opening : State.between.Reads "\x7b".toList [.openObject] .between := .one rfl
      have closing : State.between.Reads "\x7d".toList [.closeObject] .between := .one rfl
      have colon : State.between.Reads ":".toList [.colon] .between := .one rfl
      have member : ∀ m ∈ members, State.between.Reads (quote m.1 ++ ":" ++ m.2.compact).toList
          (.text (Piece.ofText m.1) :: .colon :: m.2.tree.tokens) .between := by
        intro m hm
        rw [String.toList_append, String.toList_append]
        exact ((State.Reads.quote m.1).append colon).append (ih m hm)
      rw [compact, tree, Tree.tokens, memberTokens_eq, memberTrees_eq_map, compactMembers_eq_map,
        List.map_map, String.toList_append, String.toList_append]
      exact (opening.append (reads_separated member)).append closing

/-- The text of a value is read as the tree of the value, and nothing is left over. -/
theorem read_compact (v : Value) : Tree.read (tokens v.compact) = (v.tree, []) := by
  rw [(reads_compact v).tokens_eq, Tree.read_tokens v.intact_tree]

end Value

end Scaffold.Json
