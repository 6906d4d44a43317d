import Scaffold.Migration.Stamper
import Scaffold.Proofs.Calendar.Stamp

/-!
# The times of one stamper

  A stamper is followed over any number of calls: `after n` is its state behind
  `n` calls, and `time? n` is the time that call `n` draws. The invariant is
  that the last time it remembers is the greatest one that it has issued. From
  it follows that each call draws the least second which is neither before the
  reading nor among or before the issued times, and that a call fails only
  when the calendar is used up.
-/

namespace Scaffold

namespace Stamper

open Moment

variable (clock : Clock) (s : Stamper)

/-! ## One call -/

/-- The rule of one call, for a clock that shows `now`. -/
theorem timeAfter_eq (last : Option Moment) (now : Moment) :
    timeAfter last now =
      match last with
      | none => some now
      | some u => if u < now then some now else u.next? := by
  cases last with
  | none => rfl
  | some u =>
      show (if u.earlier now then some now else u.next?) = if u < now then some now else u.next?
      simp only [earlier_iff]

theorem next_fst : (s.next clock).1 = timeAfter s.last (clock s.reads).moment := by
  rw [next]
  cases timeAfter s.last (clock s.reads).moment <;> rfl

theorem next_last : (s.next clock).2.last = (s.next clock).1.or s.last := by
  rw [next]
  cases timeAfter s.last (clock s.reads).moment <;> rfl

theorem next_reads : (s.next clock).2.reads = s.reads + 1 := by
  rw [next]
  cases timeAfter s.last (clock s.reads).moment <;> rfl

/-- The times that a call may draw, with `last` drawn before it. -/
def Open (last : Option Moment) (now : Moment) : Set Moment :=
  {v | now ≤ v ∧ ∀ u ∈ last, u < v}

/-- A call draws the least time that is open to it. -/
theorem timeAfter_eq_some_iff (last : Option Moment) (now t : Moment) :
    timeAfter last now = some t ↔ IsLeast (Open last now) t := by
  -- two least elements are equal, so it is enough to find one
  have huniq : ∀ {u}, IsLeast (Open last now) u → (some u = some t ↔ IsLeast (Open last now) t) := by
    intro u hu
    constructor
    · intro h
      rw [← Option.some.inj h]
      exact hu
    · intro h
      rw [hu.unique h]
  rw [timeAfter_eq]
  cases last with
  | none =>
      refine huniq ⟨⟨le_refl now, fun u hu => nomatch hu⟩, ?_⟩
      intro v hv
      exact hv.1
  | some w =>
      have hmem : ∀ v, v ∈ Open (some w) now ↔ now ≤ v ∧ w < v := by
        intro v
        simp [Open]
      by_cases hw : w < now
      · show (if w < now then some now else w.next?) = some t ↔ _
        rw [if_pos hw]
        refine huniq ⟨(hmem now).mpr ⟨le_refl now, hw⟩, ?_⟩
        intro v hv
        exact hv.1
      · show (if w < now then some now else w.next?) = some t ↔ _
        rw [if_neg hw]
        have hnow : now ≤ w := not_lt.mp hw
        cases hn : w.next? with
        | none =>
            have hlast : w = latest := (next?_eq_none_iff w).mp hn
            refine ⟨fun h => absurd h nofun, ?_⟩
            intro ht
            have hwt : w < t := ((hmem t).mp ht.1).2
            rw [hlast] at hwt
            exact absurd (le_latest t) (not_le.mpr hwt)
        | some u =>
            have hu := isLeast_of_next?_eq_some hn
            refine huniq ⟨(hmem u).mpr ⟨hnow.trans (le_of_lt hu.1), hu.1⟩, ?_⟩
            intro v hv
            exact hu.2 ((hmem v).mp hv).2

/-- A call fails only behind the last moment of the calendar. -/
theorem timeAfter_eq_none_iff (last : Option Moment) (now : Moment) :
    timeAfter last now = none ↔ last = some latest := by
  rw [timeAfter_eq]
  cases last with
  | none => simp
  | some w =>
      show (if w < now then some now else w.next?) = none ↔ _
      by_cases hw : w < now
      · have hne : w ≠ latest := by
          intro h
          rw [h] at hw
          exact absurd (le_latest now) (not_le.mpr hw)
        rw [if_pos hw]
        simp [hne]
      · rw [if_neg hw, next?_eq_none_iff, Option.some.injEq]

/-! ## Many calls -/

/-- The state behind `n` calls. -/
def after : Nat → Stamper
  | 0 => s
  | n + 1 => ((after n).next clock).2

/-- The time that call `n` draws. -/
def time? (n : Nat) : Option Moment := ((s.after clock n).next clock).1

/-- The times that `n` calls have issued. -/
def issued (n : Nat) : Set Moment := {u | ∃ m < n, s.time? clock m = some u}

theorem after_succ_last (n : Nat) :
    (s.after clock (n + 1)).last = (s.time? clock n).or (s.after clock n).last :=
  next_last clock (s.after clock n)

theorem after_reads (n : Nat) : (s.after clock n).reads = s.reads + n := by
  induction n with
  | zero => rfl
  | succ n ih =>
      show ((s.after clock n).next clock).2.reads = s.reads + (n + 1)
      rw [next_reads, ih, Nat.add_assoc]

/-- The state behind a call and `n` more. -/
theorem after_next (n : Nat) : (s.next clock).2.after clock n = s.after clock (n + 1) := by
  induction n with
  | zero => rfl
  | succ n ih =>
      show (((s.next clock).2.after clock n).next clock).2 = _
      rw [ih]
      rfl

theorem after_add (m n : Nat) : (s.after clock m).after clock n = s.after clock (m + n) := by
  induction n with
  | zero => rfl
  | succ n ih =>
      show (((s.after clock m).after clock n).next clock).2 = _
      rw [ih]
      rfl

theorem time?_eq (n : Nat) :
    s.time? clock n = timeAfter (s.after clock n).last (clock (s.reads + n)).moment := by
  rw [time?, next_fst, after_reads]

/-! ## The invariant -/

/-- The remembered time is the greatest one of those that have been issued. -/
def Remembers (times : Set Moment) : Option Moment → Prop
  | none => times = ∅
  | some w => IsGreatest times w

/-- What is open behind the remembered time is open behind all issued times. -/
theorem Remembers.mem_open_iff {times : Set Moment} {last : Option Moment}
    (h : Remembers times last) (now v : Moment) :
    v ∈ Open last now ↔ now ≤ v ∧ ∀ u ∈ times, u < v := by
  cases last with
  | none =>
      have hempty : times = ∅ := h
      simp [Open, hempty]
  | some w =>
      have hw : IsGreatest times w := h
      constructor
      · rintro ⟨hnow, hlt⟩
        exact ⟨hnow, fun u hu => lt_of_le_of_lt (hw.2 hu) (hlt w rfl)⟩
      · rintro ⟨hnow, hlt⟩
        refine ⟨hnow, ?_⟩
        intro u hu
        rw [← Option.some.inj hu]
        exact hlt w hw.1

/-- One call keeps the invariant. -/
theorem Remembers.step {times : Set Moment} {last : Option Moment} (h : Remembers times last)
    (now : Moment) :
    Remembers (times ∪ {u | timeAfter last now = some u}) ((timeAfter last now).or last) := by
  cases ht : timeAfter last now with
  | none =>
      have hsame : times ∪ {u : Moment | none = some u} = times := by simp
      rw [hsame]
      exact h
  | some t =>
      have hopen : t ∈ Open last now := ((timeAfter_eq_some_iff last now t).mp ht).1
      -- the new time is open, so it is behind all times before it
      refine ⟨Or.inr rfl, ?_⟩
      rintro u (hu | hu)
      · exact le_of_lt (((h.mem_open_iff now t).mp hopen).2 u hu)
      · exact le_of_eq (Option.some.inj hu).symm

theorem issued_succ (n : Nat) :
    s.issued clock (n + 1) = s.issued clock n ∪ {u | s.time? clock n = some u} := by
  ext u
  constructor
  · rintro ⟨m, hm, hu⟩
    rcases Nat.lt_succ_iff_lt_or_eq.mp hm with hmn | rfl
    · exact Or.inl ⟨m, hmn, hu⟩
    · exact Or.inr hu
  · rintro (⟨m, hm, hu⟩ | hu)
    · exact ⟨m, Nat.lt_succ_of_lt hm, hu⟩
    · exact ⟨n, Nat.lt_succ_self n, hu⟩

/-- A new stamper keeps the invariant over any number of calls. -/
theorem remembers_after (n : Nat) : Remembers (new.issued clock n) (new.after clock n).last := by
  induction n with
  | zero =>
      ext u
      simp [issued]
  | succ n ih =>
      rw [issued_succ, after_succ_last, time?_eq]
      exact ih.step _

/-- Call `n` draws the least second that is neither before the reading nor at or before a time
    that has been issued. -/
theorem time?_eq_some_iff (n : Nat) (t : Moment) :
    new.time? clock n = some t ↔
      IsLeast {v | (clock n).moment ≤ v ∧ ∀ u ∈ new.issued clock n, u < v} t := by
  have hreads : new.reads + n = n := Nat.zero_add n
  have hset : Open (new.after clock n).last (clock n).moment
      = {v | (clock n).moment ≤ v ∧ ∀ u ∈ new.issued clock n, u < v} := by
    ext v
    exact (remembers_after clock n).mem_open_iff (clock n).moment v
  rw [time?_eq, hreads, timeAfter_eq_some_iff, hset]

/-- Later calls draw later times. -/
theorem time?_lt_time? {m n : Nat} (h : m < n) {t u : Moment}
    (ht : new.time? clock m = some t) (hu : new.time? clock n = some u) : t < u :=
  ((time?_eq_some_iff clock n u).mp hu).1.2 t ⟨m, h, ht⟩

theorem time?_eq_none_iff (n : Nat) :
    s.time? clock n = none ↔ (s.after clock n).last = some latest := by
  rw [time?_eq, timeAfter_eq_none_iff]

/-! ## Draws -/

/-- Successful calls in a row: the times they draw, and the state behind them. -/
inductive Draws (clock : Clock) : Stamper → List Moment → Stamper → Prop where
  | nil (s : Stamper) : Draws clock s [] s
  | cons {s s' s'' : Stamper} {t : Moment} {ts : List Moment} :
      s.next clock = (some t, s') → Draws clock s' ts s'' → Draws clock s (t :: ts) s''

variable {clock s}

theorem Draws.append {s' s'' : Stamper} {ts us : List Moment} (h : Draws clock s ts s')
    (h' : Draws clock s' us s'') : Draws clock s (ts ++ us) s'' := by
  induction h with
  | nil s => exact h'
  | cons hnext _ ih => exact .cons hnext (ih h')

/-- A time drawn by a call is behind the last time before it, and is the last time after it. -/
theorem next_some {s' : Stamper} {t : Moment} (h : s.next clock = (some t, s')) :
    s'.last = some t ∧ ∀ w ∈ s.last, w < t := by
  have hfst : (s.next clock).1 = some t := by rw [h]
  have hlast := next_last clock s
  rw [h] at hlast
  refine ⟨hlast, ?_⟩
  rw [next_fst, timeAfter_eq_some_iff] at hfst
  exact hfst.1.2

/-- Times drawn in a row increase, and stay behind the last time before them. -/
theorem Draws.increasing {s' : Stamper} {ts : List Moment} (h : Draws clock s ts s') :
    (∀ w ∈ s.last, ∀ t ∈ ts, w < t) ∧ ts.Pairwise (· < ·) := by
  induction h with
  | nil s => exact ⟨fun _ _ _ ht => (nomatch ht), List.Pairwise.nil⟩
  | @cons s s' s'' t ts hnext _ ih =>
      obtain ⟨hlast, hlt⟩ := next_some hnext
      have hrest : ∀ u ∈ ts, t < u := ih.1 t hlast
      refine ⟨?_, List.pairwise_cons.mpr ⟨hrest, ih.2⟩⟩
      intro w hw u hu
      rcases List.mem_cons.mp hu with rfl | hu
      · exact hlt w hw
      · exact (hlt w hw).trans (hrest u hu)

/-- The draws are those of the first calls. -/
theorem Draws.eq_after {s' : Stamper} {ts : List Moment} (h : Draws clock s ts s') :
    s' = s.after clock ts.length ∧ ∀ t ∈ ts, t ∈ s.issued clock ts.length := by
  induction h with
  | nil s => exact ⟨rfl, fun _ ht => nomatch ht⟩
  | @cons s s' s'' t ts hnext _ ih =>
      have hs' : s' = (s.next clock).2 := by rw [hnext]
      subst hs'
      obtain ⟨hstate, hissued⟩ := ih
      refine ⟨by rw [hstate, after_next]; rfl, ?_⟩
      intro u hu
      rcases List.mem_cons.mp hu with rfl | hu
      · exact ⟨0, Nat.succ_pos _, by rw [time?, after, hnext]⟩
      · obtain ⟨m, hm, hum⟩ := hissued u hu
        rw [time?, after_next] at hum
        exact ⟨m + 1, Nat.succ_lt_succ hm, hum⟩

/-- The last time behind draws is one of them or was there before. -/
theorem Draws.last_mem {s' : Stamper} {ts : List Moment} (h : Draws clock s ts s') {w : Moment}
    (hw : s'.last = some w) : w ∈ ts ∨ s.last = some w := by
  induction h with
  | nil s => exact Or.inr hw
  | cons hnext _ ih =>
      rcases ih hw with hmem | hlast
      · exact Or.inl (List.mem_cons_of_mem _ hmem)
      · rw [(next_some hnext).1] at hlast
        rw [Option.some.inj hlast]
        exact Or.inl List.mem_cons_self

theorem Draws.reads {s' : Stamper} {ts : List Moment} (h : Draws clock s ts s') :
    s'.reads = s.reads + ts.length := by
  rw [h.eq_after.1, after_reads]

theorem Draws.mem_issued {s' : Stamper} {ts : List Moment} (h : Draws clock s ts s') {k : Nat}
    (hk : s'.reads ≤ s.reads + k) : ∀ t ∈ ts, t ∈ s.issued clock k := by
  intro t ht
  obtain ⟨m, hm, htm⟩ := h.eq_after.2 t ht
  rw [h.reads] at hk
  exact ⟨m, by omega, htm⟩

theorem Draws.issued_subset {s' : Stamper} {ts : List Moment} (h : Draws clock s ts s')
    (k : Nat) : s'.issued clock k ⊆ s.issued clock (ts.length + k) := by
  rintro t ⟨m, hm, htm⟩
  rw [h.eq_after.1, time?, after_add] at htm
  exact ⟨ts.length + m, Nat.add_lt_add_left hm _, htm⟩

/-- Draws of plain years do not reach the last moment. -/
theorem Draws.last_ne_latest {s' : Stamper} {ts : List Moment} (h : Draws clock s ts s')
    (hlast : s.last ≠ some latest) (hplain : ∀ t ∈ ts, t.HasPlainYear) :
    s'.last ≠ some latest := by
  intro hs'
  rcases h.last_mem hs' with hmem | hs
  · exact absurd (hplain _ hmem) (by decide)
  · exact hlast hs

variable (clock s)

/-! ## Answers -/

/-- What a stamper is asked for. -/
inductive Call where
  | stamp
  | path (outputDir : Path) (discriminator : String)

/-- The answer to a call for which a time has been drawn. -/
def Call.answer (t : Moment) : Call → String
  | stamp => t.stamp
  | path outputDir discriminator => (pathFor outputDir t discriminator).text

/-- The answers to calls in turn; a call for which there is no time has none. -/
def answers : Stamper → List Call → List (Option String) × Stamper
  | s, [] => ([], s)
  | s, c :: cs =>
    let (time, s') := s.next clock
    let (rest, s'') := answers s' cs
    (time.map c.answer :: rest, s'')

theorem answers_snd (calls : List Call) : (s.answers clock calls).2 = s.after clock calls.length := by
  induction calls generalizing s with
  | nil => rfl
  | cons c cs ih =>
      show ((s.next clock).2.answers clock cs).2 = _
      rw [ih, after_next]
      rfl

theorem answers_getElem? (calls : List Call) (n : Nat) :
    (s.answers clock calls).1[n]? = calls[n]?.map fun c => (s.time? clock n).map c.answer := by
  induction calls generalizing s n with
  | nil => rfl
  | cons c cs ih =>
      cases n with
      | zero => rfl
      | succ n =>
          show ((s.next clock).2.answers clock cs).1[n]? = _
          rw [ih, time?, after_next]
          rfl

/-- What call `n` of a new stamper does. -/
structure CallSpec (n : Nat) : Prop where
  /-- It takes reading `n` and no other. -/
  reads : (new.after clock n).reads = n ∧ (new.after clock (n + 1)).reads = n + 1
  /-- It draws the reading, cut to a whole second, where that is behind the last time issued, and
      otherwise the second after the last time issued. -/
  draws : new.time? clock n = match (new.after clock n).last with
    | none => some (clock n).moment
    | some u => if u < (clock n).moment then some (clock n).moment else u.next?
  /-- The time it draws becomes the last one issued; if it draws none, the last one stays. -/
  keeps : (new.after clock (n + 1)).last = (new.time? clock n).or (new.after clock n).last
  /-- It draws the least second that is not before the reading and behind all times issued. -/
  least : ∀ t, new.time? clock n = some t ↔
    IsLeast {v | (clock n).moment ≤ v ∧ ∀ u ∈ new.issued clock n, u < v} t
  /-- It draws a time behind those of all calls before, and in plain years a stamp behind theirs. -/
  increases : ∀ m < n, ∀ t u, new.time? clock m = some t → new.time? clock n = some u →
    t < u ∧ (t.HasPlainYear → u.HasPlainYear → Text.Precedes t.stamp u.stamp)
  /-- In plain years its stamp has fourteen digits, and the last two are no sixty. -/
  digits : ∀ t, new.time? clock n = some t → t.HasPlainYear →
    t.stamp.length = 14 ∧ (∀ c ∈ t.stamp.toList, c.isDigit = true) ∧
      t.stamp.toList.drop 12 = Scaffold.digits 2 t.second ∧ t.second < 60
  /-- It fails exactly at the end of the calendar, which no reading exceeds. -/
  fails : (new.time? clock n = none ↔ (new.after clock n).last = some latest) ∧
    (clock n).moment ≤ latest

/-- **The stamps of one stamper**, over any clock and any mix of calls: every call is answered
    from the time it draws, and it draws as `CallSpec` says. -/
theorem stamps_strictly_increase (calls : List Call) :
    (new.answers clock calls).2 = new.after clock calls.length ∧
    ∀ n, (new.answers clock calls).1[n]?
        = calls[n]?.map (fun c => (new.time? clock n).map c.answer) ∧
      CallSpec clock n := by
  refine ⟨answers_snd clock new calls, ?_⟩
  intro n
  have hreads : ∀ n, (new.after clock n).reads = n := by
    intro n
    exact (after_reads clock new n).trans (Nat.zero_add n)
  refine ⟨answers_getElem? clock new calls n, ⟨hreads n, hreads (n + 1)⟩, ?_,
    after_succ_last clock new n, time?_eq_some_iff clock n, ?_, ?_,
    time?_eq_none_iff clock new n, le_latest _⟩
  · rw [time?_eq, show new.reads + n = n from Nat.zero_add n, timeAfter_eq]
  · intro m hm t u ht hu
    have hlt : t < u := time?_lt_time? clock hm ht hu
    exact ⟨hlt, fun h h' => (stamp_precedes_iff h h').mpr hlt⟩
  · intro t _ h
    refine ⟨(stamp_digits h).1, (stamp_digits h).2, ?_, t.second_lt⟩
    rw [toList_stamp h]
    exact List.drop_left' (by simp)

/-- A reading inside the leap second of 2016, and then a clock that has gone back. -/
def leapClock : Clock :=
  Clock.ofList ⟨(ofPlaces? 2016 12 31 23 59 59).get (by decide), 1500000000⟩
    [⟨(ofPlaces? 2016 12 31 23 59 58).get (by decide), 0⟩]

/-- A stamp from inside a leap second, and the one after it, which is of the next year. -/
theorem stamps_strictly_increase_leap :
    (new.answers leapClock [.stamp, .path ⟨"out"⟩ "book"]).1
      = [some "20161231235959", some "out/migrations/20170101000000-book.js"] ∧
    ∃ t u, new.time? leapClock 0 = some t ∧ new.time? leapClock 1 = some u ∧
      t.HasPlainYear ∧ u.HasPlainYear ∧ t < u ∧ Text.Precedes t.stamp u.stamp := by
  refine ⟨by decide +kernel, ?_⟩
  have h0 : new.time? leapClock 0 = some (leapClock 0).moment := by decide
  have h1 : new.time? leapClock 1 = (leapClock 0).moment.next? := by decide
  obtain ⟨u, hu⟩ : ∃ u, (leapClock 0).moment.next? = some u ∧ u.HasPlainYear := by
    exact ⟨⟨2017, 1, 1, 0, 0, 0, by decide, by decide, by decide, by decide, by decide,
      by decide⟩, by decide, by decide⟩
  have hplain : (leapClock 0).moment.HasPlainYear := by decide
  have hspec := (stamps_strictly_increase leapClock [.stamp, .path ⟨"out"⟩ "book"]).2 1
  obtain ⟨hlt, hbytes⟩ := hspec.2.increases 0 (by decide) _ u h0 (h1.trans hu.1)
  exact ⟨_, u, h0, h1.trans hu.1, hplain, hu.2, hlt, hbytes hplain hu.2⟩

end Stamper

end Scaffold
