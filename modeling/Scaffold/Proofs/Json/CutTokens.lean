import Mathlib.Tactic.SplitIfs
import Scaffold.Json.Token

/-!
# Tokens at a cut

  A text and a longer one that begins with it have the same tokens up to the
  cut. There the shorter text ends, perhaps with a token that goes against the
  rules or with the first digits of a number, and the longer one goes on, with
  a token at least, if more than white space was cut off.
-/

namespace Scaffold.Json

/-- How a text may end where another one goes on. -/
inductive Ends : List Token → List Token → Prop where
  | between {ts : List Token} (h : ts ≠ []) : Ends [] ts
  /-- The cut goes through a token. -/
  | broken {ts : List Token} (h : ts ≠ []) : Ends [.broken] ts
  /-- The cut goes through a number, and what is left of it is a number. -/
  | number {n m : Numeral} {ts : List Token} : Ends [.number n] (.number m :: ts)
  | unfinishedNumber {n : Numeral} {ts : List Token} : Ends [.number n] (.broken :: ts)

/-- A character inside of a number leads on in it, completes it or breaks the rules. -/
theorem continueNumber_cases (part : NumberPart) (n : Numeral) (c : Char) :
    (∃ part' m, continueNumber part n c = .next [] (.number part' m)) ∨
      (∃ ts s, continueNumber part n c = .next (.number n :: ts) s) ∨
      continueNumber part n c = .fail := by
  unfold continueNumber
  split
  · split
    · exact Or.inl ⟨_, _, rfl⟩
    · exact Or.inr (Or.inr rfl)
  · split_ifs
    iterate 3 exact Or.inl ⟨_, _, rfl⟩
    · split
      · exact Or.inr (Or.inl ⟨_, _, rfl⟩)
      · exact Or.inr (Or.inl ⟨_, _, rfl⟩)
    · exact Or.inr (Or.inr rfl)

/-- A character that completes no token begins or continues one, or it is white space. -/
theorem State.step_silent {s s' : State} {c : Char} (h : s.step c = .next [] s') :
    s' ≠ .between ∨ s = .between ∧ isSpace c = true := by
  cases s with
  | between =>
      rw [step] at h
      unfold begin at h
      split at h
      · rename_i hspace
        exact Or.inr ⟨rfl, hspace⟩
      · refine Or.inl ?_
        rintro rfl
        repeat' split at h
        all_goals cases h
  | number part n =>
      rw [step] at h
      rcases continueNumber_cases part n c with ⟨_, _, hc⟩ | ⟨_, _, hc⟩ | hc
      · rw [hc] at h
        cases h
        exact Or.inl State.noConfusion
      · rw [hc] at h
        cases h
      · rw [hc] at h
        cases h
  | word rest t =>
      refine Or.inl ?_
      rintro rfl
      rcases rest with - | ⟨l, - | ⟨l', ls⟩⟩
      · cases h
      · rw [step] at h
        split at h <;> cases h
      · rw [step] at h
        · split at h <;> cases h
        · nofun
  | text | escape | code =>
      refine Or.inl ?_
      rintro rfl
      rw [step] at h
      repeat' split at h
      all_goals cases h

/-- Tokens come of every text that begins inside of a token or has more than white space. -/
theorem State.run_ne_nil {s : State} {cs : List Char}
    (h : s ≠ .between ∨ ∃ c ∈ cs, isSpace c = false) : s.run cs ≠ [] := by
  induction cs generalizing s with
  | nil =>
      have hs : s ≠ .between := h.resolve_right nofun
      cases s with
      | between => exact absurd rfl hs
      | number part n =>
          rw [run, finish]
          split <;> exact List.cons_ne_nil _ _
      | word | text | escape | code => exact List.cons_ne_nil _ _
  | cons c cs ih =>
      rw [run]
      split
      · rename_i ts s' hstep
        cases ts with
        | cons t ts => exact List.cons_ne_nil _ _
        | nil =>
            refine ih ((step_silent hstep).imp_right fun ⟨hs, hc⟩ => ?_)
            obtain ⟨d, hd, hspace⟩ := h.resolve_left (not_not_intro hs)
            rcases List.mem_cons.mp hd with rfl | hd
            · rw [hc] at hspace
              exact nomatch hspace
            · exact ⟨d, hd, hspace⟩
      · exact List.cons_ne_nil _ _

/-- A number that has been begun is completed, or it breaks the rules. -/
theorem State.run_number_cases (part : NumberPart) (n : Numeral) (cs : List Char) :
    (∃ m ts, (State.number part n).run cs = .number m :: ts) ∨
      ∃ ts, (State.number part n).run cs = .broken :: ts := by
  induction cs generalizing part n with
  | nil =>
      rw [run, finish]
      split
      · exact Or.inl ⟨n, [], rfl⟩
      · exact Or.inr ⟨[], rfl⟩
  | cons c cs ih =>
      rw [run, step]
      rcases continueNumber_cases part n c with ⟨part', m, hc⟩ | ⟨ts, s, hc⟩ | hc
      · rw [hc]
        exact ih part' m
      · rw [hc]
        exact Or.inl ⟨n, ts ++ s.run cs, rfl⟩
      · rw [hc]
        exact Or.inr ⟨[], rfl⟩

theorem State.ends {s : State} {cs : List Char} (h : ∃ c ∈ cs, isSpace c = false) :
    Ends s.finish (s.run cs) := by
  have hne : s.run cs ≠ [] := run_ne_nil (Or.inr h)
  cases s with
  | between => exact .between hne
  | number part n =>
      rw [finish]
      split
      · rcases run_number_cases part n cs with ⟨m, ts, hrun⟩ | ⟨ts, hrun⟩
        · rw [hrun]
          exact .number
        · rw [hrun]
          exact .unfinishedNumber
      · exact .broken hne
  | word | text | escape | code => exact .broken hne

/-- Up to the cut the tokens are the same. -/
theorem State.exists_ends (s : State) (cs : List Char) {ds : List Char}
    (h : ∃ c ∈ ds, isSpace c = false) :
    ∃ ts fin more, s.run cs = ts ++ fin ∧ s.run (cs ++ ds) = ts ++ more ∧ Ends fin more := by
  induction cs generalizing s with
  | nil => exact ⟨[], s.finish, s.run ds, rfl, rfl, s.ends h⟩
  | cons c cs ih =>
      rw [List.cons_append, run, run]
      split
      · rename_i ts s' _
        obtain ⟨ts', fin, more, hrun, hrun', hends⟩ := ih s'
        refine ⟨ts ++ ts', fin, more, ?_, ?_, hends⟩
        · rw [hrun, List.append_assoc]
        · rw [hrun', List.append_assoc]
      · exact ⟨[], [.broken], [.broken], rfl, rfl, .broken (List.cons_ne_nil _ _)⟩

end Scaffold.Json
