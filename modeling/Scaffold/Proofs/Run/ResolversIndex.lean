import Scaffold.Proofs.Run.LeftOut
import Scaffold.Proofs.Run.OwnFiles
import Scaffold.Proofs.Text.AsciiCase

/-!
# The index of resolvers

  A run writes one index of resolvers, behind the files of its entities. It has a
  line for each entity of the report and for nothing else, because both lists
  come from the definitions that do not fail, and what a line requires is the
  resolvers file of that entity, which has been attempted before. The lines are
  put together from names as they are. So they can be told apart in the text
  exactly if no name holds a line break, and the file that is required is the one
  attempted exactly if the name does not begin with a slash.
-/

namespace Scaffold

/-! ## Paths -/

theorem Path.length_le_join (p : Path) (q : String) : q.length ≤ (p.join q).text.length := by
  rw [join]
  split
  · exact Nat.le_refl _
  · split <;> simp only [String.length_append] <;> omega

theorem Path.length_text_le_front (p : Path) : p.text.length ≤ p.front.length := by
  rw [front]
  split
  · exact Nat.le_refl _
  · simp only [String.length_append]
    omega

/-! ## Lines of text -/

namespace Text

/-- The pieces of a text between its line breaks. -/
def lines (text : String) : List String := (splitAt '\n' text.toList).map String.ofList

/-- Lines that are each closed by a line break. -/
def closedLines (ls : List String) : String := String.join (ls.map (· ++ "\n"))

theorem closedLines_cons (l : String) (ls : List String) :
    (closedLines (l :: ls)).toList = l.toList ++ '\n' :: (closedLines ls).toList := by
  simp [closedLines]

theorem closedLines_append (ls ms : List String) :
    closedLines (ls ++ ms) = closedLines ls ++ closedLines ms := by
  simp [closedLines]

theorem notMem_of_mem_lines {text l : String} (h : l ∈ lines text) : '\n' ∉ l.toList := by
  obtain ⟨piece, hpiece, rfl⟩ := List.mem_map.mp h
  rw [String.toList_ofList]
  exact notMem_of_mem_splitAt hpiece

/-- Lines can be told apart in a text exactly if none of them holds a line break. -/
theorem lines_closedLines_iff {ls : List String} :
    lines (closedLines ls) = ls ++ [""] ↔ ∀ l ∈ ls, '\n' ∉ l.toList := by
  constructor
  · intro heq l hl
    have hmem : l ∈ lines (closedLines ls) := by
      rw [heq]
      exact List.mem_append_left _ hl
    exact notMem_of_mem_lines hmem
  · intro hls
    induction ls with
    | nil => rfl
    | cons l ls ih =>
        obtain ⟨hl, hrest⟩ := List.forall_mem_cons.mp hls
        have hsplit : lines (closedLines (l :: ls)) = l :: lines (closedLines ls) := by
          rw [lines, closedLines_cons, splitAt_append_cons, splitAt_of_notMem hl]
          show String.ofList l.toList :: _ = _
          rw [String.ofList_toList]
          rfl
        rw [hsplit, ih hrest, List.cons_append]

end Text

theorem Source.text_lines (width : Nat) (ls : List String) :
    text width (lines ls) = Text.closedLines ls := by
  rw [text, lines, List.map_map, Text.closedLines]
  refine congrArg String.join (List.map_congr_left fun l _ => ?_)
  show Line.text width (Line.code 0 l) = l ++ "\n"
  simp [Line.text]

theorem Source.text_append (width : Nat) (s t : Source) :
    text width (s ++ t) = text width s ++ text width t := by
  simp [text]

/-! ## The lines of the index -/

/-- The line of the index that requires the resolvers of an entity. -/
def Entity.requireLine (e : Entity) : String := s!"const {e.name} = require('./{e.nameLc}');"

namespace Resolvers

/-- The line of the index that exports the resolvers under these names. -/
def exportLine (names : List String) : String :=
  "module.exports = Object.assign(\x7b\x7d, " ++ ", ".intercalate names ++ ");"

/-- The lines of the index. -/
def indexLines (es : List Entity) : List String :=
  es.map Entity.requireLine ++ ["", exportLine (es.map Entity.name)]

theorem indexText_eq (es : List Entity) :
    indexText (es.map Indexed.of) = Text.closedLines (indexLines es) := by
  have hgap : Source.text 4 Source.gap = Text.closedLines [""] := rfl
  have hnames : (es.map Indexed.of).map Indexed.name = es.map Entity.name := by
    rw [List.map_map]
    rfl
  have hrequire : (es.map Indexed.of).map (fun m => s!"const {m.name} = require('./{m.nameLc}');") =
      es.map Entity.requireLine := by
    rw [List.map_map]
    rfl
  rw [indexText, indexSource, Source.text_append, Source.text_append, Source.text_lines,
    Source.text_lines, hgap, hrequire, hnames, indexLines, ← Text.closedLines_append,
    ← Text.closedLines_append, List.append_assoc]
  rfl

/-! ### Line breaks in names -/

/-- Nothing but letters comes into a name when its first character is put into lower case. -/
theorem mem_of_mem_uncapitalize {name : String} {c : Char} (hascii : Text.isAscii c = true)
    (hletter : c.isLower = false) (hc : c ∈ (Naming.uncapitalize name).toList) :
    c ∈ name.toList := by
  rw [Naming.toList_uncapitalize] at hc
  cases hname : name.toList with
  | nil =>
      rw [hname] at hc
      exact hc
  | cons d ds =>
      rw [hname, Naming.uncapitalizeChars] at hc
      rcases List.mem_append.mp hc with hfirst | hrest
      · rw [Text.eq_of_mem_lowerOf hfirst hascii hletter]
        exact List.mem_cons_self
      · exact List.mem_cons_of_mem d hrest

theorem newline_mem_requireLine_iff {e : Entity} :
    '\n' ∈ e.requireLine.toList ↔ '\n' ∈ e.name.toList := by
  have hline : e.requireLine.toList = "const ".toList ++ (e.name.toList ++
      (" = require('./".toList ++ (e.nameLc.toList ++ "');".toList))) := by
    simp [Entity.requireLine, toString]
  rw [hline]
  simp only [List.mem_append]
  constructor
  · rintro (h | h | h | h | h)
    · exact absurd h (by decide)
    · exact h
    · exact absurd h (by decide)
    · exact mem_of_mem_uncapitalize (by decide) (by decide) h
    · exact absurd h (by decide)
  · intro h
    exact Or.inr (Or.inl h)

theorem notMem_intercalate {c : Char} {sep : List Char} (hsep : c ∉ sep) {ls : List (List Char)}
    (h : ∀ l ∈ ls, c ∉ l) : c ∉ sep.intercalate ls := by
  induction ls with
  | nil => exact List.not_mem_nil
  | cons l ls ih =>
      obtain ⟨hl, hls⟩ := List.forall_mem_cons.mp h
      cases ls with
      | nil =>
          rw [List.intercalate_singleton]
          exact hl
      | cons m ls =>
          rw [List.intercalate_cons_cons, List.mem_append, List.mem_append]
          exact not_or.mpr ⟨not_or.mpr ⟨hl, hsep⟩, ih hls⟩

theorem newline_notMem_exportLine {names : List String} (h : ∀ name ∈ names, '\n' ∉ name.toList) :
    '\n' ∉ (exportLine names).toList := by
  have hnames : '\n' ∉ (", ".intercalate names).toList := by
    rw [String.toList_intercalate]
    refine notMem_intercalate (by decide) fun l hl => ?_
    obtain ⟨name, hname, rfl⟩ := List.mem_map.mp hl
    exact h name hname
  have hopen : '\n' ∉ "module.exports = Object.assign(\x7b\x7d, ".toList := by decide +kernel
  have hclose : '\n' ∉ ");".toList := by decide +kernel
  show '\n' ∉ ("module.exports = Object.assign(\x7b\x7d, " ++ ", ".intercalate names ++ ");").toList
  rw [String.toList_append, String.toList_append, List.mem_append, List.mem_append]
  exact not_or.mpr ⟨not_or.mpr ⟨hopen, hnames⟩, hclose⟩

/-- The lines of the index can be told apart exactly if no name holds a line break. -/
theorem lines_indexText_iff (es : List Entity) :
    Text.lines (indexText (es.map Indexed.of)) = indexLines es ++ [""] ↔
      ∀ e ∈ es, '\n' ∉ e.name.toList := by
  rw [indexText_eq, Text.lines_closedLines_iff, indexLines]
  constructor
  · intro h e he
    have hline := h e.requireLine (List.mem_append_left _ (List.mem_map_of_mem he))
    rwa [newline_mem_requireLine_iff] at hline
  · intro h l hl
    simp only [List.mem_append, List.mem_map, List.mem_cons, List.not_mem_nil, or_false] at hl
    rcases hl with ⟨e, he, rfl⟩ | rfl | rfl
    · rw [newline_mem_requireLine_iff]
      exact h e he
    · exact List.not_mem_nil
    · refine newline_notMem_exportLine fun name hname => ?_
      obtain ⟨e, he, rfl⟩ := List.mem_map.mp hname
      exact h e he

end Resolvers

/-! ## What the index requires -/

/-- Templates of resolvers. -/
def Template.isResolvers : Template → Bool
  | resolvers | webserviceResolvers => true
  | _ => false

/-- The template of an entity's resolvers. -/
def Entity.resolversTemplate (e : Entity) : Template :=
  match e.storage with
  | .sql => .resolvers
  | .webservice => .webserviceResolvers

namespace Request

variable (settings : Settings)

/-- The file that the index requires for an entity: the one of its name next to the index. -/
def required (e : Entity) : Path := ⟨(settings.outputDir.join resolversDir).front ++ e.file⟩

/-- One artifact of an entity holds its resolvers. -/
theorem filter_plan_isResolvers (e : Entity) :
    (plan settings e).filter (·.1.isResolvers) =
      [(e.resolversTemplate, .fixed (settings.outputDir.site (resolversDir, e.file)))] := by
  have hfile : s!"{e.nameLc}.js" = e.file := by simp [Entity.file, toString]
  rw [plan, hfile, Entity.resolversTemplate]
  cases e.storage with
  | sql => cases settings.generateMigrations <;> rfl
  | webservice => rfl

/-- The index finds the resolvers exactly if the name does not stand for a place of its own. -/
theorem site_eq_required_iff (e : Entity) :
    settings.outputDir.site (resolversDir, e.file) = required settings e ↔
      e.nameLc.toList.head? ≠ some '/' := by
  have hhead : e.file.toList.head? = some '/' ↔ e.nameLc.toList.head? = some '/' := by
    cases hname : e.nameLc.toList with
    | nil => simp [Entity.file, hname]
    | cons c cs => simp [Entity.file, hname]
  rw [ne_eq, ← hhead]
  constructor
  · intro heq hslash
    have hsite : settings.outputDir.site (resolversDir, e.file) = ⟨e.file⟩ :=
      Path.join_eq_self _ hslash
    -- the file that is required is longer by the directory
    have htext : e.file = (settings.outputDir.join resolversDir).front ++ e.file :=
      congrArg Path.text (hsite.symm.trans heq)
    have hlength := congrArg String.length htext
    rw [String.length_append] at hlength
    have hfront := (settings.outputDir.join resolversDir).length_text_le_front
    have hdir := settings.outputDir.length_le_join resolversDir
    have hresolvers : resolversDir.length = 9 := rfl
    omega
  · intro hslash
    have htext := Path.join_text (p := settings.outputDir.join resolversDir) hslash
    rw [required, ← htext]
    rfl

/-- The only request for an index is the one behind the entities and their associations. -/
theorem filter_all_resolversIndex (es : List Entity) :
    (all settings es).filter (·.template == some .resolversIndex) =
      [rendered .resolversIndex (.index (es.map Resolvers.Indexed.of))
        (fileIn settings resolversDir "index.js")] := by
  have hentities : (ofEntities settings es).filter (·.template == some .resolversIndex) = [] := by
    refine List.filter_eq_nil_iff.mpr fun r hr => ?_
    obtain ⟨e, -, hr⟩ := List.mem_flatMap.mp hr
    obtain ⟨p, hp, rfl⟩ := List.mem_map.mp hr
    rw [mem_plan_iff] at hp
    cases hs : e.storage with
    | sql =>
        rw [hs] at hp
        rcases hp with rfl | rfl | rfl | ⟨-, rfl⟩ <;> exact nofun
    | webservice =>
        rw [hs] at hp
        rcases hp with rfl | rfl | rfl <;> exact nofun
  have hdeferred : (deferred settings es).filter (·.template == some .resolversIndex) = [] := by
    refine List.filter_eq_nil_iff.mpr fun r hr => ?_
    obtain ⟨-, owner, -, -, a, -, rfl | rfl⟩ := mem_deferred settings hr <;> exact nofun
  rw [all_eq, List.filter_append, List.filter_append, hentities, hdeferred]
  rfl

theorem resolvers_mem {es : List Entity} {e : Entity} (he : e ∈ es) :
    rendered e.resolversTemplate (.entity e)
      (.fixed (settings.outputDir.site (resolversDir, e.file))) ∈ all settings es := by
  refine rendered_mem settings he ?_
  rw [mem_plan_iff, Entity.resolversTemplate]
  cases e.storage with
  | sql => exact Or.inr (Or.inl rfl)
  | webservice => exact Or.inr (Or.inr rfl)

end Request

/-! ## The index of a run -/

/-- Whatever came of an attempt, the report tells of its path. -/
theorem Attempt.reported {σ : Type} (writer : Writer σ) (state : σ) {as : List Attempt}
    {a : Attempt} (ha : a ∈ as) :
    a.path ∈ (runAll writer state as).1.filterMap Outcome.written? ∨
      ∃ f ∈ (runAll writer state as).1.filterMap Outcome.failure?,
        f.path = a.path ∧ f.template = a.template := by
  obtain ⟨result, hmem⟩ : ∃ result, (a, result) ∈ as.zip (results writer state as) := by
    obtain ⟨n, hn, rfl⟩ := List.mem_iff_getElem.mp ha
    have hresult : n < (results writer state as).length := by rwa [length_results]
    refine ⟨(results writer state as)[n], ?_⟩
    rw [← List.getElem_zip (h := by rw [List.length_zip]; exact lt_min hn hresult)]
    exact List.getElem_mem _
  have houtcome : Outcome.of (a, result) ∈ (runAll writer state as).1 := by
    rw [runAll_fst]
    exact List.mem_map_of_mem hmem
  cases result with
  | ok u => exact Or.inl (List.mem_filterMap.mpr ⟨_, houtcome, rfl⟩)
  | error f =>
      exact Or.inr ⟨⟨a.path, a.template, f⟩, List.mem_filterMap.mpr ⟨_, houtcome, rfl⟩, rfl, rfl⟩

/-- What the index of a run lists, when the attempts of the run are `as` and its entities `es`. -/
structure IndexLists (settings : Settings) (batch : List Loaded) (as : List Attempt) (r : Report)
    (es : List Entity) : Prop where
  /-- The entities of the report are those of the definitions that do not fail, in turn. -/
  names : r.entities = es.map Entity.name
  entities : List.Forall₂ (fun l e => l.entity settings.policy = .ok e)
    (batch.filter (!·.fails settings.policy)) es
  /-- The definitions left out are the others, in turn. -/
  failures : List.Forall₂ (fun l e => e.path = l.path ∧ l.FailsWith settings.policy e.failure)
    (batch.filter (·.fails settings.policy)) r.entityFailures
  /-- There is one index, and it has a line for each entity of the report. -/
  index : as.filter (·.template == some .resolversIndex) =
    [⟨some .resolversIndex, settings.outputDir.site (Request.resolversDir, "index.js"),
      .ok (Text.closedLines (Resolvers.indexLines es))⟩]
  /-- Its lines can be told apart if no name holds a line break, and only then. -/
  lines : Text.lines (Text.closedLines (Resolvers.indexLines es)) =
    Resolvers.indexLines es ++ [""] ↔ ∀ e ∈ es, '\n' ∉ e.name.toList
  /-- One artifact of each entity holds its resolvers. It has been attempted, the report tells of
      it, and it is what the index requires unless the name begins with a slash. -/
  resolvers : ∀ e ∈ es, ∃ path,
    (Request.plan settings e).filter (·.1.isResolvers) = [(e.resolversTemplate, .fixed path)] ∧
    (⟨some e.resolversTemplate, path, e.resolversTemplate.render (.entity e)⟩ : Attempt) ∈ as ∧
    (path ∈ r.written ∨
      ∃ f ∈ r.artifactFailures, f.path = path ∧ f.template = some e.resolversTemplate) ∧
    (path = Request.required settings e ↔ e.nameLc.toList.head? ≠ some '/')

/-- **The index of resolvers is complete**: in every run that comes to its end, it lists the
    entities of the report and nothing else. -/
theorem index_lists {σ : Type} {settings : Settings} {clock : Clock} {writer : Writer σ}
    {s s' : Stamper} {state state' : σ} {batch : List Loaded} {r : Report}
    (h : run settings clock writer s state batch = (some r, s', state')) :
    ∃ as, attempts settings clock s batch = (some as, s') ∧
      IndexLists settings batch as r (assembled settings.policy batch) := by
  obtain ⟨as, has, rfl, -⟩ := exists_attempts_of_run h
  obtain ⟨ts, -, hnamed⟩ := attempts_eq_some (congrArg Prod.fst has)
  refine ⟨as, has, rfl, assembled_matches settings.policy batch,
    leftOut_matches settings.policy batch, ?_, ?_, ?_⟩
  · obtain ⟨us, -, hindex⟩ := hnamed.exists_filter (· == some .resolversIndex)
    rw [requestsOf, Request.filter_all_resolversIndex] at hindex
    obtain ⟨bs, hbs, hnone⟩ := hindex.uncons_fixed rfl
    cases hnone
    rw [hbs, ← Resolvers.indexText_eq]
    rfl
  · rw [← Resolvers.indexText_eq]
    exact Resolvers.lines_indexText_iff _
  · intro e he
    refine ⟨_, Request.filter_plan_isResolvers settings e, ?_, ?_,
      Request.site_eq_required_iff settings e⟩
    · exact hnamed.at_mem_of_fixed (Request.resolvers_mem settings he) rfl
    · exact Attempt.reported writer state
        (hnamed.at_mem_of_fixed (Request.resolvers_mem settings he) rfl)

/-- One definition is no document, and every other file is refused; the index lists both others. -/
theorem index_lists_sample :
    ∃ r s' state' as, run {} frozenClock everyOther Stamper.new 0 sampleBatch =
        (some r, s', state') ∧
      attempts {} frozenClock Stamper.new sampleBatch = (some as, s') ∧
      IndexLists {} sampleBatch as r (assembled (Settings.policy {}) sampleBatch) ∧
      r.entities = ["Book", "person"] ∧ r.entityFailures.map EntityFailure.path = [⟨"broken.json"⟩] ∧
      r.artifactFailures.length = 7 := by
  have hlists : (run {} frozenClock everyOther Stamper.new 0 sampleBatch).1.map
      (fun r => (r.entities, r.entityFailures.map EntityFailure.path, r.artifactFailures.length)) =
        some (["Book", "person"], [⟨"broken.json"⟩], 7) := by
    decide +kernel
  obtain ⟨r, hr, hlists⟩ := Option.map_eq_some_iff.mp hlists
  have hrun : run {} frozenClock everyOther Stamper.new 0 sampleBatch = (some r, _, _) :=
    Prod.ext hr rfl
  obtain ⟨as, has, hindex⟩ := index_lists hrun
  obtain ⟨hentities, hfailures⟩ := Prod.mk.inj hlists
  obtain ⟨hleftOut, hlength⟩ := Prod.mk.inj hfailures
  exact ⟨r, _, _, as, hrun, has, hindex, hentities, hleftOut, hlength⟩

/-- Names may lead astray: a run on an entity called `/book` succeeds and writes nothing where its
    index looks for the resolvers, and a run on one whose name is broken in two lines succeeds with
    an index that has no such line. -/
theorem index_led_astray :
    (∃ r, (run nearSettings frozenClock Writer.dry Stamper.new () [remoteDefinition "/book"]).1 =
        some r ∧ r.isSuccess = true ∧
      ∃ e ∈ assembled nearSettings.policy [remoteDefinition "/book"], r.entities = [e.name] ∧
        e.requireLine = "const /book = require('.//book');" ∧
        (Request.required nearSettings e).components ∉ r.written.map Path.components) ∧
    ∃ r, (run nearSettings frozenClock Writer.dry Stamper.new () [remoteDefinition "a\\nb"]).1 =
        some r ∧ r.isSuccess = true ∧
      ∃ e ∈ assembled nearSettings.policy [remoteDefinition "a\\nb"], r.entities = [e.name] ∧
        e.requireLine ∉ Text.lines (Resolvers.indexText [Resolvers.Indexed.of e]) := by
  constructor
  · have hrun : (run nearSettings frozenClock Writer.dry Stamper.new ()
        [remoteDefinition "/book"]).1.map (fun r => (r.isSuccess, r.entities,
          decide (Path.components ⟨"o/resolvers//book.js"⟩ ∉ r.written.map Path.components))) =
          some (true, ["/book"], true) := by
      decide +kernel
    have hnames : (assembled nearSettings.policy [remoteDefinition "/book"]).map
        (fun e => (e.name, e.nameLc)) = [("/book", "/book")] := by
      decide +kernel
    obtain ⟨r, hr, htold⟩ := Option.map_eq_some_iff.mp hrun
    obtain ⟨hsuccess, htold⟩ := Prod.mk.inj htold
    obtain ⟨hentities, hwritten⟩ := Prod.mk.inj htold
    obtain ⟨e, hes, he⟩ := List.map_eq_singleton_iff.mp hnames
    obtain ⟨hname, hnameLc⟩ := Prod.mk.inj he
    refine ⟨r, hr, hsuccess, e, by rw [hes]; exact List.mem_cons_self, ?_, ?_, ?_⟩
    · rw [hentities, hname]
    · rw [Entity.requireLine, hname, hnameLc]
      rfl
    · have hrequired : Request.required nearSettings e = ⟨"o/resolvers//book.js"⟩ := by
        rw [Request.required, Entity.file, hnameLc]
        decide +kernel
      rw [hrequired]
      exact of_decide_eq_true hwritten
  · have hrun : (run nearSettings frozenClock Writer.dry Stamper.new ()
        [remoteDefinition "a\\nb"]).1.map (fun r => (r.isSuccess, r.entities)) =
          some (true, ["a\nb"]) := by
      decide +kernel
    have hnames : (assembled nearSettings.policy [remoteDefinition "a\\nb"]).map Entity.name =
        ["a\nb"] := by
      decide +kernel
    obtain ⟨r, hr, htold⟩ := Option.map_eq_some_iff.mp hrun
    obtain ⟨hsuccess, hentities⟩ := Prod.mk.inj htold
    obtain ⟨e, hes, hname⟩ := List.map_eq_singleton_iff.mp hnames
    refine ⟨r, hr, hsuccess, e, by rw [hes]; exact List.mem_cons_self, ?_, fun hline => ?_⟩
    · rw [hentities, hname]
    · refine Text.notMem_of_mem_lines hline ?_
      rw [Resolvers.newline_mem_requireLine_iff, hname]
      decide

end Scaffold
