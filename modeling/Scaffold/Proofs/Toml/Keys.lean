import Scaffold.Proofs.Dict
import Scaffold.Toml.Document

/-!
# The keys of a document

  A document of TOML holds every key once. Whatever is added to it, by a value
  or by a header, goes behind its entries under a key that is not there, or
  changes what stands under one that is.
-/

namespace Scaffold.Toml

/-- No key stands twice among the entries. -/
def Entries.Distinct (es : Entries) : Prop := (es.map Prod.fst).Nodup

namespace Entries.Distinct

variable {es es' : Entries}

theorem put (h : Distinct es) (key : String) (v : Value) : Distinct (putEntry key v es) :=
  nodup_putEntry key v h

theorem concat (h : Distinct es) {key : String} (hkey : es.lookup key = none) (v : Value) :
    Distinct (es ++ [(key, v)]) := by
  have hnot : key ∉ es.map Prod.fst := by
    intro hmem
    obtain ⟨e, he, rfl⟩ := List.mem_map.mp hmem
    exact absurd (List.lookup_eq_none_iff.mp hkey e he) (by simp)
  rw [← putEntry_of_notMem hnot v]
  exact h.put key v

/-- A change at the end of a path leaves keys distinct as soon as the change itself does. -/
theorem alter {made : Origin} {enters : Origin → Bool}
    {change : Origin → Entries → Option Entries}
    (hchange : ∀ {origin es es'}, change origin es = some es' → Distinct es → Distinct es')
    {path : List String} {origin : Origin} (h : alter made enters change path origin es = some es')
    (hes : Distinct es) : Distinct es' := by
  cases path with
  | nil => exact hchange h hes
  | cons key path =>
      have hput : ∀ {v? : Option Value},
          (v? >>= fun v => pure (putEntry key v es)) = some es' → Distinct es' := by
        intro v? hv
        obtain ⟨v, -, hv⟩ := Option.bind_eq_some_iff.mp hv
        rw [← Option.some.inj hv]
        exact hes.put key v
      rw [Toml.alter] at h
      split at h
      · split at h
        · exact hput h
        · exact hput h
      · exact hput h
      · exact hput h

theorem addPair {path : List String} {key : String} {v : Value}
    (h : es.addPair path key v = some es') (hes : Distinct es) : Distinct es' := by
  refine alter (fun {origin es es'} hadd hes => ?_) h hes
  split at hadd
  · exact nomatch hadd
  · rename_i hnot
    rw [Bool.not_eq_true, Bool.or_eq_false_iff, Option.isSome_eq_false_iff,
      Option.isNone_iff_eq_none] at hnot
    rw [← Option.some.inj hadd]
    exact hes.concat hnot.2 v

theorem add {key : Key} {v : Value} (h : Reader.add key v es = some es') (hes : Distinct es) :
    Distinct es' := by
  cases key with
  | nil => exact nomatch h
  | cons last path => exact addPair h hes

theorem openTable {path : List String} {key : String} (h : es.openTable path key = some es')
    (hes : Distinct es) : Distinct es' := by
  refine alter (fun {origin es es'} hopen hes => ?_) h hes
  dsimp only at hopen
  split at hopen
  · rename_i hnone
    rw [← Option.some.inj hopen]
    exact hes.concat hnone _
  · rw [← Option.some.inj hopen]
    exact hes.put key _
  · exact nomatch hopen

theorem openNext {path : List String} {key : String} (h : es.openNext path key = some es')
    (hes : Distinct es) : Distinct es' := by
  refine alter (fun {origin es es'} hopen hes => ?_) h hes
  dsimp only at hopen
  split at hopen
  · rename_i hnone
    rw [← Option.some.inj hopen]
    exact hes.concat hnone _
  · rw [← Option.some.inj hopen]
    exact hes.put key _
  · exact nomatch hopen

end Entries.Distinct

/-! ## Reading -/

namespace Reader

/-- What may come of a reader: its keys stay distinct. -/
def Keeps (r : Reader) (next : Option Reader) : Prop :=
  ∀ r', next = some r' → r.document.Distinct → r'.document.Distinct

variable {r : Reader}

theorem Keeps.none : r.Keeps none := nofun

/-- The document is not touched. -/
theorem Keeps.same {r' : Reader} (h : r'.document = r.document) : r.Keeps (some r') := by
  intro r'' hr'' hr
  rw [← Option.some.inj hr'', h]
  exact hr

theorem Keeps.changed {document? : Option Entries} {f : Entries → Reader}
    (h : ∀ document, document? = some document → r.document.Distinct → document.Distinct)
    (hf : ∀ document, (f document).document = document) :
    r.Keeps (document? >>= fun document => some (f document)) := by
  intro r' hr' hr
  obtain ⟨document, hdocument, hr'⟩ := Option.bind_eq_some_iff.mp hr'
  rw [← Option.some.inj hr', hf]
  exact h document hdocument hr

theorem keeps_give (v : Value) : r.Keeps (r.give v) := by
  unfold give
  split
  · refine .changed (fun document hdocument hr => ?_) fun _ => rfl
    exact Entries.Distinct.alter (fun hadd hes => Entries.Distinct.add hadd hes) hdocument hr
  · exact .same rfl
  · intro r' hr' hr
    obtain ⟨es, -, hr'⟩ := Option.bind_eq_some_iff.mp hr'
    rw [← Option.some.inj hr']
    exact hr
  · exact .none

theorem keeps_close (bracket : Token) : r.Keeps (r.close bracket) := by
  unfold close
  split
  · exact fun r' hr' hr => keeps_give _ r' hr' hr
  · exact fun r' hr' hr => keeps_give _ r' hr' hr
  · exact .none

theorem keeps_head (purpose : Purpose) (key : Key) : r.Keeps (r.head purpose key) := by
  unfold head
  split
  · exact .none
  · split
    · exact .changed (fun document hdocument hr => Entries.Distinct.openNext hdocument hr)
        fun _ => rfl
    · exact .changed (fun document hdocument hr => Entries.Distinct.openTable hdocument hr)
        fun _ => rfl

theorem keeps_readPart (purpose : Purpose) (before : Key) (t : Token) :
    r.Keeps (r.readPart purpose before t) := by
  intro r' hr' hr
  obtain ⟨p, -, rfl⟩ := Option.map_eq_some_iff.mp hr'
  exact hr

theorem keeps_assign (key : Key) : r.Keeps (r.assign key) := by
  unfold assign
  split
  · exact .same rfl
  · exact .same rfl

theorem keeps_enter (f : Frame) (e : Expect) : r.Keeps (r.enter f e) := by
  unfold enter
  split
  · exact .same rfl
  · exact .none

theorem keeps_beginValue (t : Token) : r.Keeps (r.beginValue t) := by
  unfold beginValue
  split
  · exact keeps_give _
  · exact .same rfl
  · exact keeps_enter _ _
  · exact keeps_enter _ _
  · exact .none

theorem keeps_afterValue (t : Token) : r.Keeps (r.afterValue t) := by
  obtain ⟨document, above, key, frames, expect⟩ := r
  cases expect with
  | lineEnd => cases t <;> first | exact .same rfl | exact .none
  | separator =>
      cases t with
      | newline | blank => exact .same rfl
      | comma =>
          cases frames with
          | nil => exact .none
          | cons f frames => cases f <;> first | exact .same rfl | exact .none
      | _ => exact keeps_close _
  | _ => cases t <;> first | exact .same rfl | exact .none

theorem keeps_afterWord (cs : List Char) (gap : Bool) (t : Token) :
    r.Keeps (r.afterWord cs gap t) := by
  have hfinish : r.Keeps (do (← r.give (← Value.ofWord? cs)).afterValue t) := by
    intro r' hr' hr
    obtain ⟨v, -, hr'⟩ := Option.bind_eq_some_iff.mp hr'
    obtain ⟨r₁, hgive, hafter⟩ := Option.bind_eq_some_iff.mp hr'
    exact keeps_afterValue t r' hafter (keeps_give v r₁ hgive hr)
  unfold afterWord
  dsimp only
  split
  · split
    · exact .none
    · exact .same rfl
  · split
    · exact .same rfl
    · split
      · exact .same rfl
      · exact .none
  · split
    · exact .same rfl
    · exact hfinish
  · exact hfinish

/-- No token makes a key stand twice. -/
theorem keeps_step (t : Token) : r.Keeps (r.step t) := by
  obtain ⟨document, above, key, frames, expect⟩ := r
  -- only a value, a header or a closing bracket can change the document
  cases expect with
  | lineEnd => exact keeps_afterValue t
  | separator => exact keeps_afterValue t
  | word cs gap => exact keeps_afterWord cs gap t
  | line => cases t <;> first | exact .same rfl | exact keeps_readPart _ _ _
  | header => cases t <;> first | exact .same rfl | exact keeps_readPart _ _ _
  | part purpose before => cases t <;> first | exact .same rfl | exact keeps_readPart _ _ _
  | parted purpose key =>
      cases t with
      | equals => cases purpose <;> first | exact keeps_assign _ | exact .none
      | closeSquare =>
          cases purpose <;> first | exact keeps_head _ _ | exact .same rfl | exact .none
      | _ => cases purpose <;> first | exact .same rfl | exact .none
  | closing key => cases t <;> first | exact keeps_head _ _ | exact .none
  | value =>
      have hbegin := @keeps_beginValue ⟨document, above, key, frames, .value⟩ t
      cases t <;> first | exact .same rfl | exact hbegin
  | item =>
      have hbegin := @keeps_beginValue ⟨document, above, key, frames, .item⟩ t
      cases t <;> first | exact .same rfl | exact hbegin | exact keeps_close _
  | memberKey =>
      cases t <;> first | exact .same rfl | exact keeps_close _ | exact keeps_readPart _ _ _

end Reader

/-- The keys of a document are distinct. -/
theorem distinct_of_read {text : String} {es : Entries} (h : read text = some es) :
    es.Distinct := by
  -- the invariant of the run over the tokens: the keys read so far are distinct
  have hrun : ∀ {ts : List Token} {r r' : Reader}, ts.foldlM Reader.step r = some r' →
      r.document.Distinct → r'.document.Distinct := by
    intro ts
    induction ts with
    | nil =>
        intro r r' hr' hr
        rw [← Option.some.inj hr']
        exact hr
    | cons t ts ih =>
        intro r r' hr' hr
        obtain ⟨r₁, hstep, hrest⟩ := Option.bind_eq_some_iff.mp hr'
        exact ih hrest (Reader.keeps_step t r₁ hstep hr)
  obtain ⟨ts, -, h⟩ := Option.bind_eq_some_iff.mp h
  obtain ⟨r, hr, hfinish⟩ := Option.bind_eq_some_iff.mp h
  obtain ⟨r₁, hstep, hend⟩ := Option.bind_eq_some_iff.mp hfinish
  have hdistinct := Reader.keeps_step .newline r₁ hstep (hrun hr List.nodup_nil)
  split at hend
  · rw [← Option.some.inj hend]
    exact hdistinct
  · exact nomatch hend

end Scaffold.Toml
