import Scaffold.Proofs.Run.Holding
import Scaffold.Proofs.Run.Names

/-!
# Files of their own

  Definitions may have any names, and nothing keeps them from having the same
  one, or the name of a file of the batch. So a run without failures may write
  one file twice. It does so exactly if entities have no names of their own, up
  to the letter case of the first character. If besides no name leads out of
  its directory, every file holds the text of its own artifact in the end.
-/

namespace Scaffold

open Files (Location locate)
open Stamper

/-! ## Paths -/

namespace Named

variable {ts : List Moment} {as : List Attempt} {settings : Settings} {es : List Entity}

/-- Compared by their components, the paths of a run are distinct exactly if the entities have
    names of their own. -/
theorem nodup_components_iff (h : Named settings.outputDir ts (Request.all settings es) as)
    (hts : ts.Pairwise (· < ·)) :
    (as.map fun a => a.path.components).Nodup ↔ OwnNames es := by
  have hiff (hrelative : ∀ e ∈ es, e.nameLc.toList.head? ≠ some '/') :=
    h.nodup_look_iff Path.components (fun s => settings.outputDir.components ++ s.1 :: s.2)
      (fun f => Path.steps ⟨f⟩) (fun f => f.toList.head? ≠ some '/') hts
      (fun s s' heq => by
        obtain ⟨hdir, hsteps⟩ := List.cons.inj (List.append_cancel_left heq)
        exact Prod.ext hdir hsteps)
      (fun d f hd hf => Path.components_below settings.outputDir hd hf)
      ⟨isName_index.head_ne_slash, isName_commons.head_ne_slash⟩
      (fun e he => head_js_ne_slash (hrelative e he)) (fun d _ t => t.head_ne_slash _)
      (fun t u d d' => Moment.eq_of_steps)
  rw [isName_index.steps_eq, isName_commons.steps_eq] at hiff
  constructor
  · intro hnodup
    have hrelative : ∀ e ∈ es, e.nameLc.toList.head? ≠ some '/' := by
      intro e he hslash
      -- the schema and the resolvers of `e` would both be at the root
      have hfixed := (h.fixedPaths_sublist.map Path.components).nodup
        (by rw [List.map_map]; exact hnodup)
      rw [Request.fixedPaths_all, List.map_map] at hfixed
      have hfile : e.file.toList.head? = some '/' := by
        rw [Entity.file, String.toList_append, List.head?_append, hslash]
        rfl
      have hmem : ∀ d ∈ e.dirs, (d, e.file) ∈ Request.sites es := fun d hd =>
        List.mem_append_left _ (List.mem_flatMap.mpr ⟨e, he, List.mem_map.mpr ⟨d, hd, rfl⟩⟩)
      have hsame := List.inj_on_of_nodup_map hfixed (hmem _ (Request.schemasDir_mem e))
        (hmem _ (Request.resolversDir_mem e)) (by
          simp only [Function.comp_apply, Path.site, Path.join_eq_self _ hfile])
      exact absurd (Prod.mk.inj hsame).1 (by decide)
    obtain ⟨hdistinct, hapart⟩ := (hiff hrelative).mp hnodup
    exact ⟨hrelative, hdistinct, hapart⟩
  · intro hown
    exact (hiff hown.relative).mpr ⟨hown.distinct, hown.apart⟩

/-- Without slashes the files are at different locations exactly if the names are distinct and
    none is that of a file of the batch. -/
theorem nodup_locate_iff (h : Named settings.outputDir ts (Request.all settings es) as)
    (hts : ts.Pairwise (· < ·)) (hslash : NoSlashes es) (current : Location) :
    (as.map fun a => locate current a.path).Nodup ↔
      (es.map Entity.nameLc).Nodup ∧ ∀ e ∈ es, e.nameLc ≠ "index" ∧ e.nameLc ≠ "commons" := by
  have hiff := h.nodup_look_iff (locate current)
    (fun s => s.2 :: s.1 :: locate current settings.outputDir) id Path.IsName hts
    (fun s s' heq => by
      obtain ⟨hfile, hrest⟩ := List.cons.inj heq
      exact Prod.ext (List.cons.inj hrest).1 hfile)
    (fun d f hd hf => by
      rw [Path.site, Files.locate_join_name _ _ hf, Files.locate_join_name _ _ hd]
      rfl)
    ⟨isName_index, isName_commons⟩ (fun e he => isName_js (hslash.names e he))
    (fun d hd t => by
      rw [Moment.file_eq, ← String.append_assoc]
      refine isName_js ?_
      have hmem := hslash.discriminator hd
      have hstamp := t.slash_notMem_stamp
      simpa using ⟨hstamp, hmem⟩)
    (fun t u d d' heq => Moment.eq_of_dash (by
      rw [id, id, Moment.file_eq, Moment.file_eq] at heq
      exact heq))
  exact hiff.trans (nodup_file_iff es)

end Named

/-! ## Runs without failures -/

/-- The formatter that settings ask for. -/
def Settings.formatter (s : Settings) : Option Command := s.formatCommand.bind Command.ofText?

/-- **Files of their own**: a run without failures has written every file that it was to write.
    The paths are distinct exactly if the entities have names of their own. If they lead to
    distinct locations, each file holds the text of its own artifact, as a formatter that touches no
    other file has left it. And without slashes in names and keys they do so exactly if the names
    are distinct and none is that of a file of the batch. -/
theorem own_files (settings : Settings) (clock : Clock) (s : Stamper) (batch : List Loaded)
    {as : List Attempt} {s' : Stamper} (has : attempts settings clock s batch = (some as, s')) :
    (∀ (σ : Type) (writer : Writer σ) (state : σ) (r : Report),
      (run settings clock writer s state batch).1 = some r → r.isSuccess = true →
        r.written = as.map Attempt.path ∧
          ((r.written.map Path.components).Nodup ↔
            OwnNames (assembled settings.policy batch))) ∧
    (∀ (effect : Command.Effect) (w w' : Workspace) (r : Report),
      run settings clock (settings.writer effect) s w batch = (some r, s', w') →
      r.isSuccess = true → settings.dryRun = false → effect.Formats settings.formatter →
      (r.written.map (locate w.files.current)).Nodup →
        ∀ a ∈ as, ∃ text, a.content = .ok text ∧
          w'.Holds effect settings.formatter a.path text) ∧
    (NoSlashes (assembled settings.policy batch) → ∀ current : Location,
      ((as.map fun a => locate current a.path).Nodup ↔
        ((assembled settings.policy batch).map Entity.nameLc).Nodup ∧
          ∀ e ∈ assembled settings.policy batch, e.nameLc ≠ "index" ∧ e.nameLc ≠ "commons")) := by
  obtain ⟨ts, hdraws, hnamed⟩ := attempts_eq_some (congrArg Prod.fst has)
  have hts := hdraws.increasing.2
  have hfailures : ∀ (σ : Type) (writer : Writer σ) (state : σ) (r : Report),
      (run settings clock writer s state batch).1 = some r → r.isSuccess = true →
        (Attempt.runAll writer state as).1.filterMap Outcome.failure? = [] ∧
          r.written = as.map Attempt.path := by
    intro σ writer state r hrun hsuccess
    rw [run_of_attempts has] at hrun
    cases hrun
    have hnone := Report.artifactFailures_of_success hsuccess
    exact ⟨hnone, (Attempt.all_written hnone).1⟩
  refine ⟨?_, ?_, fun hslash => hnamed.nodup_locate_iff hts hslash⟩
  · intro σ writer state r hrun hsuccess
    have hwritten := (hfailures σ writer state r hrun hsuccess).2
    refine ⟨hwritten, ?_⟩
    rw [hwritten, List.map_map]
    exact hnamed.nodup_components_iff hts
  · intro effect w w' r hrun hsuccess hdry hformats hown a ha
    obtain ⟨hnone, hwritten⟩ := hfailures Workspace _ w r (congrArg Prod.fst hrun) hsuccess
    have hw' : (Attempt.runAll (settings.writer effect) w as).2 = w' := by
      rw [run_of_attempts has] at hrun
      exact congrArg (·.2.2) hrun
    have hwriter : settings.writer effect = Workspace.writer effect settings.formatter := by
      rw [Settings.writer, hdry]
      rfl
    rw [hwriter] at hnone hw'
    rw [hwritten, List.map_map] at hown
    rw [← hw']
    exact Attempt.holds_of_all_written hformats hnone hown ha

/-- The definition of a remote entity without attributes. -/
def remoteDefinition (name : String) : Loaded where
  path := ⟨"model.json"⟩
  definition := Definition.parseFrom "model.json"
    ("\x7b\"model\":\"" ++ name ++ "\",\"storageType\":\"webservice\",\"attributes\":\x7b\x7d\x7d")

/-- Settings with an output directory of a short name. -/
def nearSettings : Settings := { outputDir := ⟨"o"⟩ }

/-- A workspace with nothing but its current directory. -/
def bareWorkspace : Workspace := ⟨Files.Tree.empty "here", ""⟩

/-- A run on a remote entity draws no stamps, so the calendar does not matter. -/
theorem attempts_remote (name : String) (h : stampsOf nearSettings [remoteDefinition name] = 0) :
    ∃ as s', attempts nearSettings frozenClock Stamper.new [remoteDefinition name] =
      (some as, s') := by
  refine attempts_of_lasts fun m hm => ?_
  rw [h] at hm
  exact nomatch hm

theorem entity_book : ∀ e ∈ assembled nearSettings.policy [remoteDefinition "book"],
    e.nameLc = "book" ∧ e.associations.implicit.members = [] := by
  decide +kernel

theorem noSlashes_book :
    NoSlashes (assembled nearSettings.policy [remoteDefinition "book"]) := by
  constructor
  · intro e he
    rw [(entity_book e he).1]
    decide
  · intro e he a ha
    rw [(entity_book e he).2] at ha
    exact nomatch ha

theorem names_book :
    ((assembled nearSettings.policy [remoteDefinition "book"]).map Entity.nameLc).Nodup ∧
      ∀ e ∈ assembled nearSettings.policy [remoteDefinition "book"],
        e.nameLc ≠ "index" ∧ e.nameLc ≠ "commons" := by
  decide +kernel

/-- Six files that all hold their text behind the run. -/
theorem own_files_sample :
    ∃ as s' r w, attempts nearSettings frozenClock Stamper.new [remoteDefinition "book"] =
        (some as, s') ∧
      run nearSettings frozenClock (nearSettings.writer fun _ => id) Stamper.new bareWorkspace
        [remoteDefinition "book"] = (some r, s', w) ∧
      r.isSuccess = true ∧ (r.written.map Path.components).Nodup ∧
      ∀ a ∈ as, ∃ text, a.content = .ok text ∧ w.files.read a.path = .ok text.toUTF8 := by
  obtain ⟨as, s', has⟩ := attempts_remote "book" (by decide +kernel)
  obtain ⟨hpaths, hfiles, hplaces⟩ := own_files nearSettings frozenClock Stamper.new _ has
  have hrun := run_of_attempts has (nearSettings.writer fun _ => id) bareWorkspace
  have hsuccess : (run nearSettings frozenClock (nearSettings.writer fun _ => id) Stamper.new
      bareWorkspace [remoteDefinition "book"]).1.map Report.isSuccess = some true := by
    decide +kernel
  rw [hrun] at hsuccess
  have hsuccess := Option.some.inj hsuccess
  obtain ⟨hwritten, hdistinct⟩ := hpaths _ _ _ _ (congrArg Prod.fst hrun) hsuccess
  have hlocations := (hplaces noSlashes_book bareWorkspace.files.current).mpr names_book
  refine ⟨as, s', _, _, has, hrun, hsuccess,
    hdistinct.mpr (noSlashes_book.ownNames_iff.mpr names_book), fun a ha => ?_⟩
  obtain ⟨text, hcontent, hholds⟩ := hfiles (fun _ => id) bareWorkspace _ _ hrun hsuccess rfl
    (Command.Effect.formats_none _) (by rw [hwritten, List.map_map]; exact hlocations) a ha
  exact ⟨text, hcontent, Workspace.holds_none_iff.mp hholds⟩

/-! ### Files that meet -/

theorem Source.head_text (first : String) {c : Char} {cs : List Char}
    (h : first.toList = c :: cs) (width : Nat) (rest : Source) :
    (Source.text width (.code 0 first :: rest)).toList.head? = some c := by
  rw [Source.text, List.map_cons, String.join_cons, Source.Line.text, Nat.mul_zero,
    List.replicate_zero]
  simp [h]

/-- A schema is not the index of models; they differ in their first characters. -/
theorem Schema.text_ne_modelsIndex (e : Entity) : Schema.text e ≠ Shared.modelsIndex := by
  intro heq
  have hschema : (Schema.text e).toList.head? = some 'm' :=
    Source.head_text "module.exports = `" rfl 2 _
  have hindex : Shared.modelsIndex.toList.head? = some 'c' :=
    Source.head_text "const fs = require('fs');" rfl 2 _
  rw [heq, hindex] at hschema
  exact absurd hschema (by decide)

theorem locate_through_schemas (current : Location) :
    locate current ⟨"o/schemas/../models/index.js"⟩ = locate current ⟨"o/models/index.js"⟩ := by
  have hsteps : Path.steps ⟨"o/schemas/../models/index.js"⟩ =
      ["o", "schemas", "..", "models", "index.js"] := by decide +kernel
  have hsteps' : Path.steps ⟨"o/models/index.js"⟩ = ["o", "models", "index.js"] := by
    decide +kernel
  have habsolute : Path.isAbsolute ⟨"o/schemas/../models/index.js"⟩ =
      Path.isAbsolute ⟨"o/models/index.js"⟩ := by decide +kernel
  rw [locate, locate, hsteps, hsteps', habsolute]
  simp [Files.along]

/-- The schema of an entity that is called `../models/index` goes to the index of models, which is
    written behind it. -/
theorem meeting_attempts {as : List Attempt} {s' : Stamper}
    (has : attempts nearSettings frozenClock Stamper.new [remoteDefinition "../models/index"] =
      (some as, s')) :
    ∃ e, (⟨some .schema, ⟨"o/schemas/../models/index.js"⟩, .ok (Schema.text e)⟩ : Attempt) ∈ as ∧
      (⟨none, ⟨"o/models/index.js"⟩, .ok Shared.modelsIndex⟩ : Attempt) ∈ as := by
  have hnames : (assembled nearSettings.policy [remoteDefinition "../models/index"]).map
      (fun e => (e.storage, e.nameLc)) = [(.webservice, "../models/index")] := by
    decide +kernel
  obtain ⟨e, hes, he⟩ := List.map_eq_singleton_iff.mp hnames
  obtain ⟨hstorage, hname⟩ := Prod.mk.inj he
  obtain ⟨ts, -, hnamed⟩ := attempts_eq_some (congrArg Prod.fst has)
  obtain ⟨bs, hbs, -⟩ := hnamed.shared_last
  refine ⟨e, ?_, ?_⟩
  · rw [requestsOf, hes, Request.all, List.flatMap_cons, Request.ofEntity, Request.plan, hstorage,
      hname] at hnamed
    obtain ⟨as', rfl, -⟩ := hnamed.uncons_fixed rfl
    exact List.mem_cons_self
  · rw [hbs]
    exact List.mem_append_right bs (List.mem_cons_of_mem _ List.mem_cons_self)

/-- Nothing keeps files apart: an entity that is called `index` has its resolvers overwritten,
    and one whose name leads to the index of models has all its files overwritten, though all
    paths of that run are distinct. -/
theorem not_always_own_files :
    (∃ r, (run nearSettings frozenClock Writer.dry Stamper.new () [remoteDefinition "index"]).1 =
        some r ∧ r.isSuccess = true ∧ ¬ r.written.Nodup) ∧
    ∃ as s' r w, attempts nearSettings frozenClock Stamper.new
        [remoteDefinition "../models/index"] = (some as, s') ∧
      run nearSettings frozenClock (nearSettings.writer fun _ => id) Stamper.new bareWorkspace
        [remoteDefinition "../models/index"] = (some r, s', w) ∧
      r.isSuccess = true ∧ (r.written.map Path.components).Nodup ∧
      ¬ ∀ a ∈ as, ∀ text, a.content = .ok text → w.files.read a.path = .ok text.toUTF8 := by
  constructor
  · have hindex : (run nearSettings frozenClock Writer.dry Stamper.new ()
        [remoteDefinition "index"]).1.map (fun r => (r.isSuccess, decide r.written.Nodup)) =
          some (true, false) := by
      decide +kernel
    obtain ⟨r, hr, hboth⟩ := Option.map_eq_some_iff.mp hindex
    obtain ⟨hsuccess, hnodup⟩ := Prod.mk.inj hboth
    exact ⟨r, hr, hsuccess, of_decide_eq_false hnodup⟩
  · obtain ⟨as, s', has⟩ := attempts_remote "../models/index" (by decide +kernel)
    have hrun := run_of_attempts has (nearSettings.writer fun _ => id) bareWorkspace
    have hboth : (run nearSettings frozenClock (nearSettings.writer fun _ => id) Stamper.new
        bareWorkspace [remoteDefinition "../models/index"]).1.map
          (fun r => (r.isSuccess, decide (r.written.map Path.components).Nodup)) =
            some (true, true) := by
      decide +kernel
    rw [hrun] at hboth
    obtain ⟨hsuccess, hnodup⟩ := Prod.mk.inj (Option.some.inj hboth)
    refine ⟨as, s', _, _, has, hrun, hsuccess, of_decide_eq_true hnodup, fun hall => ?_⟩
    obtain ⟨e, hschema, hindex⟩ := meeting_attempts has
    have hbytes := Files.Tree.read_unique (hall _ hschema _ rfl) (hall _ hindex _ rfl)
      (locate_through_schemas _)
    exact Schema.text_ne_modelsIndex e (String.toByteArray_inj.mp hbytes)

end Scaffold
