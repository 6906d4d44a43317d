import Scaffold.Proofs.Calendar.AnyYear
import Scaffold.Proofs.Migration.Stamper
import Scaffold.Proofs.Run.Requests

/-!
# How requests get their paths

  Each request of a run becomes an attempt in its place: a fixed place keeps
  its path, and a place among the migrations takes the next time that is drawn.
  The relation `Named` says this for a list of times, requests and attempts,
  and it can be cut and joined like the lists. In plain years the paths of
  migrations are then in byte order, because their times increase.
-/

namespace Scaffold

open Stamper

/-! ## Paths of migrations -/

/-- What stands before the last piece of a path that is joined to `p`. -/
def Path.front (p : Path) : String :=
  if p.text.isEmpty || p.text.toList.getLast? == some '/' then p.text else p.text ++ "/"

theorem Path.join_text {p : Path} {q : String} (h : q.toList.head? ≠ some '/') :
    (p.join q).text = p.front ++ q := by
  have hq : ¬ (q.toList.head? == some '/') = true := by simpa using h
  rw [join, front, if_neg hq]
  by_cases hp : (p.text.isEmpty || p.text.toList.getLast? == some '/') = true
  · rw [if_pos hp, if_pos hp]
  · rw [if_neg hp, if_neg hp]

/-- A file name that begins with a stamp leads to no other place. -/
theorem Moment.head_ne_slash (t : Moment) (rest : String) :
    (t.stamp ++ rest).toList.head? ≠ some '/' := by
  rw [String.toList_append]
  cases hcs : t.stamp.toList with
  | nil => exact absurd hcs t.stamp_ne_nil
  | cons c cs =>
      intro hc
      have hslash : c = '/' := Option.some.inj hc
      exact t.slash_notMem_stamp (by rw [hcs, hslash]; exact List.mem_cons_self)

theorem Stamper.pathFor_eq (outputDir : Path) (t : Moment) (d : String) :
    pathFor outputDir t d = (outputDir.join migrationsDir).join (t.stamp ++ ("-" ++ d ++ ".js")) := by
  have hname : s!"{t.stamp}-{d}.js" = t.stamp ++ ("-" ++ d ++ ".js") := by
    simp [String.append_assoc, toString]
  rw [pathFor, hname]

theorem Stamper.pathFor_text (outputDir : Path) (t : Moment) (d : String) :
    (pathFor outputDir t d).text
      = (outputDir.join migrationsDir).front ++ (t.stamp ++ ("-" ++ d ++ ".js")) := by
  rw [pathFor_eq, Path.join_text (t.head_ne_slash _)]

/-- Migrations of one directory are sorted by their times, whatever they are called. -/
theorem Stamper.pathFor_precedes {t u : Moment} (ht : t.HasPlainYear) (hu : u.HasPlainYear)
    (h : t < u) (outputDir : Path) (d d' : String) :
    (pathFor outputDir t d).Precedes (pathFor outputDir u d') := by
  rw [Path.Precedes, pathFor_text, pathFor_text]
  refine Text.Precedes.append_left ?_ _
  refine Text.Precedes.append_right ((Moment.stamp_precedes_iff ht hu).mpr h) ?_ _ _
  rw [Moment.length_bytes_stamp ht, Moment.length_bytes_stamp hu]

/-! ## Times, requests and attempts -/

@[simp] theorem Request.path_at (r : Request) (path : Path) : (r.at path).path = path := rfl

/-- The attempts of requests, with the times that the migrations among them draw. -/
inductive Named (outputDir : Path) : List Moment → List Request → List Attempt → Prop where
  | nil : Named outputDir [] [] []
  | fixed {ts : List Moment} {r : Request} {rs : List Request} {as : List Attempt} {path : Path} :
      r.place = .fixed path → Named outputDir ts rs as →
      Named outputDir ts (r :: rs) (r.at path :: as)
  | stamped {t : Moment} {ts : List Moment} {r : Request} {rs : List Request}
      {as : List Attempt} {d : String} :
      r.place = .stamped d → Named outputDir ts rs as →
      Named outputDir (t :: ts) (r :: rs) (r.at (pathFor outputDir t d) :: as)

namespace Named

variable {outputDir : Path} {ts us : List Moment} {rs qs : List Request} {as bs : List Attempt}

theorem append (h : Named outputDir ts rs as) (h' : Named outputDir us qs bs) :
    Named outputDir (ts ++ us) (rs ++ qs) (as ++ bs) := by
  induction h with
  | nil => exact h'
  | fixed hr _ ih => exact .fixed hr ih
  | stamped hr _ ih => exact .stamped hr ih

/-- The attempts of two lists of requests in a row are those of the first and of the second. -/
theorem split (h : Named outputDir ts (rs ++ qs) as) :
    ∃ ts₁ ts₂ as₁ as₂, as = as₁ ++ as₂ ∧ Named outputDir ts₁ rs as₁ ∧
      Named outputDir ts₂ qs as₂ := by
  induction rs generalizing ts as with
  | nil => exact ⟨[], ts, [], as, rfl, .nil, h⟩
  | cons r rs ih =>
      cases h with
      | fixed hr hrest =>
          obtain ⟨ts₁, ts₂, as₁, as₂, rfl, h₁, h₂⟩ := ih hrest
          exact ⟨ts₁, ts₂, _ :: as₁, as₂, rfl, .fixed hr h₁, h₂⟩
      | stamped hr hrest =>
          obtain ⟨ts₁, ts₂, as₁, as₂, rfl, h₁, h₂⟩ := ih hrest
          exact ⟨_ :: ts₁, ts₂, _ :: as₁, as₂, rfl, .stamped hr h₁, h₂⟩

/-- A request with a fixed place in front is attempted there, before the others. -/
theorem uncons_fixed {r : Request} {path : Path} (hr : r.place = .fixed path)
    (h : Named outputDir ts (r :: rs) as) :
    ∃ as', as = r.at path :: as' ∧ Named outputDir ts rs as' := by
  cases h with
  | fixed hr' h =>
      rw [hr] at hr'
      cases hr'
      exact ⟨_, rfl, h⟩
  | stamped hr' _ => exact nomatch hr.symm.trans hr'

/-- Every attempt is one of a request. -/
theorem exists_request (h : Named outputDir ts rs as) {a : Attempt} (ha : a ∈ as) :
    ∃ r ∈ rs, a = r.at a.path ∧
      (r.place = .fixed a.path ∨
        ∃ t ∈ ts, ∃ d, r.place = .stamped d ∧ a.path = pathFor outputDir t d) := by
  induction h with
  | nil => exact nomatch ha
  | @fixed ts r rs as path hr _ ih =>
      rcases List.mem_cons.mp ha with rfl | ha
      · exact ⟨r, List.mem_cons_self, rfl, Or.inl hr⟩
      · obtain ⟨q, hq, hrest⟩ := ih ha
        exact ⟨q, List.mem_cons_of_mem r hq, hrest⟩
  | @stamped t ts r rs as d hr _ ih =>
      rcases List.mem_cons.mp ha with rfl | ha
      · refine ⟨r, List.mem_cons_self, ?_, Or.inr ⟨t, List.mem_cons_self, d, hr, ?_⟩⟩
        · rw [Request.path_at]
        · rw [Request.path_at]
      · obtain ⟨q, hq, hat, hplace⟩ := ih ha
        refine ⟨q, List.mem_cons_of_mem r hq, hat, ?_⟩
        rcases hplace with hfixed | ⟨u, hu, hstamped⟩
        · exact Or.inl hfixed
        · exact Or.inr ⟨u, List.mem_cons_of_mem t hu, hstamped⟩

theorem length_eq (h : Named outputDir ts rs as) : as.length = rs.length := by
  induction h with
  | nil => rfl
  | fixed _ _ ih => exact congrArg (· + 1) ih
  | stamped _ _ ih => exact congrArg (· + 1) ih

/-- Every request has an attempt in its place. -/
theorem exists_placed (h : Named outputDir ts rs as) {r : Request} (hr : r ∈ rs) :
    ∃ path, r.at path ∈ as ∧
      (r.place = .fixed path ∨ ∃ t d, r.place = .stamped d ∧ path = pathFor outputDir t d) := by
  induction h with
  | nil => exact nomatch hr
  | @fixed ts q rs as path hq _ ih =>
      rcases List.mem_cons.mp hr with rfl | hr
      · exact ⟨path, List.mem_cons_self, Or.inl hq⟩
      · obtain ⟨p, hp, hplace⟩ := ih hr
        exact ⟨p, List.mem_cons_of_mem _ hp, hplace⟩
  | @stamped t ts q rs as d hq _ ih =>
      rcases List.mem_cons.mp hr with rfl | hr
      · exact ⟨pathFor outputDir t d, List.mem_cons_self, Or.inr ⟨t, d, hq, rfl⟩⟩
      · obtain ⟨p, hp, hplace⟩ := ih hr
        exact ⟨p, List.mem_cons_of_mem _ hp, hplace⟩

theorem exists_attempt (h : Named outputDir ts rs as) {r : Request} (hr : r ∈ rs) :
    ∃ path, r.at path ∈ as := by
  obtain ⟨path, hpath, -⟩ := h.exists_placed hr
  exact ⟨path, hpath⟩

/-- A request with a fixed place is attempted there. -/
theorem at_mem_of_fixed (h : Named outputDir ts rs as) {r : Request} (hr : r ∈ rs) {path : Path}
    (hplace : r.place = .fixed path) : r.at path ∈ as := by
  obtain ⟨path', hmem, hfixed | ⟨t, d, hstamped, -⟩⟩ := h.exists_placed hr
  · rwa [Place.fixed.inj (hplace.symm.trans hfixed)]
  · exact nomatch hplace.symm.trans hstamped

/-- The attempts of some requests, chosen by their templates, draw some of the times. -/
theorem exists_filter (h : Named outputDir ts rs as) (keeps : Option Template → Bool) :
    ∃ us, us.Sublist ts ∧
      Named outputDir us (rs.filter (keeps ·.template)) (as.filter (keeps ·.template)) := by
  induction h with
  | nil => exact ⟨[], List.Sublist.slnil, .nil⟩
  | @fixed ts r rs as path hr _ ih =>
      obtain ⟨us, hsub, hnamed⟩ := ih
      cases hk : keeps r.template with
      | true =>
          refine ⟨us, hsub, ?_⟩
          simp only [List.filter_cons, Request.at, hk, if_true]
          exact .fixed hr hnamed
      | false =>
          refine ⟨us, hsub, ?_⟩
          simp only [List.filter_cons, Request.at, hk, if_false, Bool.false_eq_true]
          exact hnamed
  | @stamped t ts r rs as d hr _ ih =>
      obtain ⟨us, hsub, hnamed⟩ := ih
      cases hk : keeps r.template with
      | true =>
          refine ⟨t :: us, hsub.cons_cons t, ?_⟩
          simp only [List.filter_cons, Request.at, hk, if_true]
          exact .stamped hr hnamed
      | false =>
          refine ⟨us, hsub.cons t, ?_⟩
          simp only [List.filter_cons, Request.at, hk, if_false, Bool.false_eq_true]
          exact hnamed

/-- Where no request draws a stamp, no time is drawn. -/
theorem eq_nil_of_fixed (h : Named outputDir ts rs as)
    (hfixed : ∀ r ∈ rs, ∀ d, r.place ≠ .stamped d) : ts = [] := by
  induction h with
  | nil => rfl
  | fixed _ _ ih => exact ih fun q hq => hfixed q (List.mem_cons_of_mem _ hq)
  | stamped hr _ _ => exact absurd hr (hfixed _ List.mem_cons_self _)

end Named

/-! ## Migrations in order -/

/-- The attempt has the template of a migration. -/
def Attempt.IsMigration (a : Attempt) : Prop := ∃ t ∈ a.template, t.isMigration = true

/-- Increasing times of plain years give the migrations increasing names, as long as no request
    with a fixed place is a migration. -/
theorem Named.migrations_increase {outputDir : Path} {ts : List Moment} {rs : List Request}
    {as : List Attempt} (h : Named outputDir ts rs as)
    (hfixed : ∀ r ∈ rs, ∀ path, r.place = .fixed path → ¬ r.IsMigration)
    (hplain : ∀ t ∈ ts, t.HasPlainYear) (hts : ts.Pairwise (· < ·)) :
    as.Pairwise fun a b => a.IsMigration → b.IsMigration → a.path.Precedes b.path := by
  induction h with
  | nil => exact List.Pairwise.nil
  | @fixed ts r rs as path hr _ ih =>
      have hrest := ih (fun q hq => hfixed q (List.mem_cons_of_mem r hq)) hplain hts
      refine List.pairwise_cons.mpr ⟨?_, hrest⟩
      intro b _ ha
      exact absurd ha (hfixed r List.mem_cons_self path hr)
  | @stamped t ts r rs as d hr hnamed ih =>
      have hfixed' : ∀ q ∈ rs, ∀ path, q.place = .fixed path → ¬ q.IsMigration :=
        fun q hq => hfixed q (List.mem_cons_of_mem r hq)
      obtain ⟨hlt, hts⟩ := List.pairwise_cons.mp hts
      have hrest := ih hfixed' (fun u hu => hplain u (List.mem_cons_of_mem t hu)) hts
      refine List.pairwise_cons.mpr ⟨?_, hrest⟩
      intro b hb _ hmigration
      obtain ⟨q, hq, hat, hplace⟩ := hnamed.exists_request hb
      -- a later migration has drawn its time, and behind `t`
      rcases hplace with hplace | ⟨u, hu, d', -, hpath⟩
      · rw [hat] at hmigration
        exact absurd hmigration (hfixed' q hq _ hplace)
      · rw [hpath, Request.path_at]
        exact pathFor_precedes (hplain t List.mem_cons_self)
          (hplain u (List.mem_cons_of_mem t hu)) (hlt u hu) outputDir d d'

/-! ## What a run names -/

/-- Requests that all get a path draw their times in turn. -/
theorem Stamper.settleAll_some {clock : Clock} {outputDir : Path} {s s' : Stamper}
    {rs : List Request} {paths : List Path}
    (h : s.settleAll clock outputDir (rs.map Request.place) = (some paths, s')) :
    ∃ ts, Draws clock s ts s' ∧ Named outputDir ts rs (rs.zipWith Request.at paths) := by
  induction rs generalizing s paths with
  | nil =>
      obtain ⟨hpaths, rfl⟩ := Prod.mk.inj h
      rw [← Option.some.inj hpaths]
      exact ⟨[], .nil s, .nil⟩
  | cons r rs ih =>
      rw [List.map_cons, settleAll] at h
      cases hr : r.place with
      | fixed path =>
          rw [hr, settle] at h
          obtain ⟨hpaths, hs'⟩ := Prod.mk.inj h
          obtain ⟨rest, hrest, rfl⟩ := Option.map_eq_some_iff.mp hpaths
          obtain ⟨ts, hdraws, hnamed⟩ := ih (Prod.ext hrest hs')
          exact ⟨ts, hdraws, .fixed hr hnamed⟩
      | stamped d =>
          rw [hr, settle] at h
          cases hnext : s.next clock with
          | mk time s₁ =>
              rw [hnext] at h
              cases time with
              | none => exact nomatch (Prod.mk.inj h).1
              | some t =>
                  obtain ⟨hpaths, hs'⟩ := Prod.mk.inj h
                  obtain ⟨rest, hrest, rfl⟩ := Option.map_eq_some_iff.mp hpaths
                  obtain ⟨ts, hdraws, hnamed⟩ := ih (Prod.ext hrest hs')
                  exact ⟨t :: ts, .cons hnext hdraws, .stamped hr hnamed⟩

/-- Requests that do not all get a path have used up the calendar. -/
theorem Stamper.settleAll_none {clock : Clock} {outputDir : Path} {s s' : Stamper}
    {places : List Place} (h : s.settleAll clock outputDir places = (none, s')) :
    ∃ ts s₁, Draws clock s ts s₁ ∧ s₁.next clock = (none, s') := by
  induction places generalizing s with
  | nil => exact nomatch (Prod.mk.inj h).1
  | cons place places ih =>
      rw [settleAll] at h
      cases place with
      | fixed path =>
          rw [settle] at h
          obtain ⟨hpaths, hs'⟩ := Prod.mk.inj h
          exact ih (Prod.ext (Option.map_eq_none_iff.mp hpaths) hs')
      | stamped d =>
          rw [settle] at h
          cases hnext : s.next clock with
          | mk time s₁ =>
              rw [hnext] at h
              cases time with
              | none =>
                  rw [← (Prod.mk.inj h).2]
                  exact ⟨[], s, .nil s, hnext⟩
              | some t =>
                  obtain ⟨hpaths, hs'⟩ := Prod.mk.inj h
                  obtain ⟨ts, s₂, hdraws, hlast⟩ :=
                    ih (Prod.ext (Option.map_eq_none_iff.mp hpaths) hs')
                  exact ⟨t :: ts, s₂, .cons hnext hdraws, hlast⟩

/-! ## Runs that the calendar lasts for -/

/-- The place draws a stamp. -/
def Place.isStamped : Place → Bool
  | .fixed _ => false
  | .stamped _ => true

/-- There is a time for each of the next `n` calls. -/
def Stamper.Lasts (clock : Clock) (s : Stamper) (n : Nat) : Prop :=
  ∀ m < n, (s.time? clock m).isSome = true

theorem Stamper.Lasts.next {clock : Clock} {s : Stamper} {n : Nat} (h : s.Lasts clock (n + 1)) :
    (∃ t, s.next clock = (some t, (s.next clock).2)) ∧ (s.next clock).2.Lasts clock n := by
  constructor
  · obtain ⟨t, ht⟩ := Option.isSome_iff_exists.mp (h 0 n.succ_pos)
    exact ⟨t, Prod.ext ht rfl⟩
  · intro m hm
    have hnext := h (m + 1) (Nat.succ_lt_succ hm)
    rw [time?, ← after_next] at hnext
    exact hnext

/-- Places are settled as soon as there is a time for each one that draws a stamp. -/
theorem Stamper.Lasts.settleAll {clock : Clock} {places : List Place} {s : Stamper}
    (h : s.Lasts clock (places.countP Place.isStamped)) (outputDir : Path) :
    ∃ paths s', s.settleAll clock outputDir places = (some paths, s') := by
  induction places generalizing s with
  | nil => exact ⟨[], s, rfl⟩
  | cons place places ih =>
      rw [Stamper.settleAll]
      cases place with
      | fixed path =>
          rw [List.countP_cons_of_neg (by simp [Place.isStamped])] at h
          obtain ⟨paths, s', hrest⟩ := ih h
          refine ⟨path :: paths, s', ?_⟩
          simp only [settle, hrest, Option.map_some]
      | stamped d =>
          rw [List.countP_cons_of_pos (by rfl)] at h
          obtain ⟨⟨t, hnext⟩, hlasts⟩ := h.next
          obtain ⟨paths, s', hrest⟩ := ih hlasts
          refine ⟨pathFor outputDir t d :: paths, s', ?_⟩
          rw [settle, hnext]
          simp only [Option.map_some, hrest]

end Scaffold
