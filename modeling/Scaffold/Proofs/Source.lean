import Scaffold.Source

/-!
# Stretches of source text

  A stretch of lines stands in a source text if it is found there in one piece.
  It stays in one piece when the text is moved in, put into a block, or set
  among other blocks, so what stands in a part of a text stands in the whole.
-/

namespace Scaffold.Source

variable {s t : Source}

theorem isInfix_indent (h : s <:+: t) : s.indent <:+: t.indent := h.map Line.deeper

/-- What stands in the body of a block stands in the block, one level further in. -/
theorem isInfix_block (head tail : String) (h : s <:+: t) : s.indent <:+: block head t tail := by
  rw [block, List.append_assoc]
  exact (isInfix_indent h).trans (List.infix_append' _ _ _)

/-- Every block of a list stands in the list with its gaps. -/
theorem isInfix_spaced {b : Source} {blocks : List Source} (h : b ∈ blocks) :
    b <:+: spaced blocks := by
  induction blocks with
  | nil => exact nomatch h
  | cons c cs ih =>
      cases cs with
      | nil =>
          rw [spaced, List.intercalate_singleton]
          cases List.mem_singleton.mp h
          exact List.infix_refl b
      | cons c' cs =>
          rw [spaced, List.intercalate_cons_cons]
          rcases List.mem_cons.mp h with rfl | h
          · rw [List.append_assoc]
            exact (List.prefix_append _ _).isInfix
          · exact (ih h).trans (List.suffix_append _ _).isInfix

end Scaffold.Source
