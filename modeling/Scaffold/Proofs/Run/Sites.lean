import Mathlib.Data.List.Nodup
import Scaffold.Proofs.Path
import Scaffold.Proofs.Run.Naming

/-!
# Where the files of a run go

  Every file of a run goes to a site, a directory below the output directory
  and a file name. The sites of entities follow from their names and the sites
  of migrations from their stamps, so two files can only meet if entities share
  a name or have the name of a file of the batch. The heart is that this does
  not depend on how paths are compared, as long as the directory and the file
  name can be told from what is compared, and stamps from the file names.
-/

namespace Scaffold

open Stamper

/-! ## Sites -/

/-- The file at a site. -/
def Path.site (outputDir : Path) (s : String × String) : Path := (outputDir.join s.1).join s.2

/-- The name of an entity's files. -/
def Entity.file (e : Entity) : String := e.nameLc ++ ".js"

/-- The directories that have a file of the entity. -/
def Entity.dirs (e : Entity) : List String :=
  match e.storage with
  | .sql => [Request.schemasDir, Request.resolversDir, modelsDir]
  | .webservice => [Request.schemasDir, remoteModelsDir, Request.resolversDir]

/-- The name of a migration's file. -/
def Moment.file (t : Moment) (d : String) : String := t.stamp ++ ("-" ++ d ++ ".js")

/-- The path of a place that needs no stamp. -/
def Place.path? : Place → Option Path
  | .fixed path => some path
  | .stamped _ => none

theorem Stamper.pathFor_eq_site (outputDir : Path) (t : Moment) (d : String) :
    pathFor outputDir t d = outputDir.site (migrationsDir, t.file d) := pathFor_eq outputDir t d

namespace Request

/-- The sites of a run on these entities, but for its migrations. -/
def sites (es : List Entity) : List (String × String) :=
  es.flatMap (fun e => e.dirs.map (·, e.file)) ++
    [(resolversDir, "index.js"), (schemasDir, "commons.js"), (modelsDir, "index.js")]

/-- The paths that need no stamp. -/
def fixedPaths (rs : List Request) : List Path := (rs.map Request.place).filterMap Place.path?

theorem fixedPaths_append (rs qs : List Request) :
    fixedPaths (rs ++ qs) = fixedPaths rs ++ fixedPaths qs := by
  simp only [fixedPaths, List.map_append, List.filterMap_append]

theorem fixedPaths_ofEntity (settings : Settings) (e : Entity) :
    fixedPaths (ofEntity settings e) = e.dirs.map fun d => settings.outputDir.site (d, e.file) := by
  have hfile : s!"{e.nameLc}.js" = e.file := by simp [Entity.file, toString]
  rw [fixedPaths, ofEntity, plan, hfile, Entity.dirs]
  cases e.storage <;> cases settings.generateMigrations <;> rfl

/-- An artifact of an entity goes to a site of the entity. -/
theorem rendered_mem (settings : Settings) {es : List Entity} {e : Entity} (he : e ∈ es)
    {template : Template} {dir : String}
    (h : (template, fileIn settings dir s!"{e.nameLc}.js") ∈ plan settings e) :
    rendered template (.entity e) (.fixed (settings.outputDir.site (dir, e.file))) ∈
      all settings es := by
  have hfile : s!"{e.nameLc}.js" = e.file := by simp [Entity.file, toString]
  rw [all_eq]
  refine List.mem_append_left _ (List.mem_append_left _ (List.mem_flatMap.mpr ⟨e, he, ?_⟩))
  refine List.mem_map.mpr ⟨_, h, ?_⟩
  rw [hfile]
  rfl

theorem fixedPaths_deferred (settings : Settings) (es : List Entity) :
    fixedPaths (deferred settings es) = [] := by
  refine List.filterMap_eq_nil_iff.mpr fun place hplace => ?_
  obtain ⟨r, hr, rfl⟩ := List.mem_map.mp hplace
  obtain ⟨-, owner, -, -, a, -, rfl | rfl⟩ := mem_deferred settings hr <;> rfl

theorem fixedPaths_all (settings : Settings) (es : List Entity) :
    fixedPaths (all settings es) = (sites es).map settings.outputDir.site := by
  have hentities : fixedPaths (ofEntities settings es) =
      (es.flatMap fun e => e.dirs.map (·, e.file)).map settings.outputDir.site := by
    induction es with
    | nil => rfl
    | cons e es ih =>
        rw [ofEntities] at ih ⊢
        rw [List.flatMap_cons, fixedPaths_append, fixedPaths_ofEntity, ih, List.flatMap_cons,
          List.map_append, List.map_map]
        rfl
  rw [all_eq, fixedPaths_append, fixedPaths_append, hentities, fixedPaths_deferred, List.append_nil,
    sites, List.map_append]
  rfl

/-! ### Names of directories -/

theorem dirs_cases (e : Entity) :
    e.dirs = [schemasDir, resolversDir, modelsDir] ∨
      e.dirs = [schemasDir, remoteModelsDir, resolversDir] := by
  rw [Entity.dirs]
  cases e.storage with
  | sql => exact Or.inl rfl
  | webservice => exact Or.inr rfl

theorem nodup_dirs (e : Entity) : e.dirs.Nodup := by
  rcases dirs_cases e with h | h <;> rw [h] <;> decide

theorem schemasDir_mem (e : Entity) : schemasDir ∈ e.dirs := by
  rcases dirs_cases e with h | h <;> rw [h] <;> exact List.mem_cons_self

theorem resolversDir_mem (e : Entity) : resolversDir ∈ e.dirs := by
  rcases dirs_cases e with h | h <;> rw [h] <;> decide

/-- A site is one of an entity, or one of the three files of the batch. -/
theorem mem_sites {es : List Entity} {s : String × String} (h : s ∈ sites es) :
    (∃ e ∈ es, s.1 ∈ e.dirs ∧ s.2 = e.file) ∨
      (s.1 = resolversDir ∨ s.1 = schemasDir ∨ s.1 = modelsDir) ∧
        (s.2 = "index.js" ∨ s.2 = "commons.js") := by
  rcases List.mem_append.mp h with h | h
  · obtain ⟨e, he, h⟩ := List.mem_flatMap.mp h
    obtain ⟨d, hd, rfl⟩ := List.mem_map.mp h
    exact Or.inl ⟨e, he, hd, rfl⟩
  · simp only [List.mem_cons, List.not_mem_nil, or_false] at h
    rcases h with rfl | rfl | rfl
    · exact Or.inr ⟨Or.inl rfl, Or.inl rfl⟩
    · exact Or.inr ⟨Or.inr (Or.inl rfl), Or.inr rfl⟩
    · exact Or.inr ⟨Or.inr (Or.inr rfl), Or.inl rfl⟩

theorem isName_dir {es : List Entity} {s : String × String} (h : s ∈ sites es) :
    Path.IsName s.1 ∧ s.1 ≠ migrationsDir := by
  have hdirs : s.1 ∈ [schemasDir, resolversDir, modelsDir, remoteModelsDir] := by
    rcases mem_sites h with ⟨e, -, hd, -⟩ | ⟨hd, -⟩
    · have hsub : ∀ d ∈ e.dirs, d ∈ [schemasDir, resolversDir, modelsDir, remoteModelsDir] := by
        rcases dirs_cases e with h | h <;> rw [h] <;> decide
      exact hsub s.1 hd
    · rcases hd with hd | hd | hd <;> rw [hd] <;> decide
  have hall : ∀ d ∈ [schemasDir, resolversDir, modelsDir, remoteModelsDir],
      '/' ∉ d.toList ∧ d ≠ "" ∧ d ≠ "." ∧ d ≠ ".." ∧ d ≠ migrationsDir := by decide
  obtain ⟨hslash, hempty, hdot, hdots, hne⟩ := hall s.1 hdirs
  exact ⟨⟨hslash, hempty, hdot, hdots⟩, hne⟩

theorem isName_migrationsDir : Path.IsName migrationsDir :=
  ⟨by decide, by decide, by decide, by decide⟩

/-! ### Sites of their own -/

section Keys

variable {κ : Type} (k : String → κ) (es : List Entity)

/-- The sites of entities are distinct if the file names are, because every entity has a
    schema. -/
theorem nodup_entitySites :
    (es.flatMap fun e => e.dirs.map fun d => (d, k e.file)).Nodup ↔
      (es.map fun e => k e.file).Nodup := by
  rw [List.nodup_flatMap]
  have heach : ∀ e ∈ es, (e.dirs.map fun d => (d, k e.file)).Nodup := fun e _ =>
    (nodup_dirs e).map fun d d' h => (Prod.mk.inj h).1
  have hpair : ∀ e e' : Entity,
      (Function.onFun List.Disjoint fun e => e.dirs.map fun d => (d, k e.file)) e e' ↔
        k e.file ≠ k e'.file := by
    intro e e'
    constructor
    · intro hdisjoint hk
      refine hdisjoint (List.mem_map.mpr ⟨schemasDir, schemasDir_mem e, rfl⟩) ?_
      exact List.mem_map.mpr ⟨schemasDir, schemasDir_mem e', by rw [hk]⟩
    · intro hne site hsite hsite'
      obtain ⟨d, -, rfl⟩ := List.mem_map.mp hsite
      obtain ⟨d', -, h⟩ := List.mem_map.mp hsite'
      exact hne (Prod.mk.inj h).2.symm
  have hkeys : (es.map fun e => k e.file).Nodup ↔
      es.Pairwise fun e e' => k e.file ≠ k e'.file := List.pairwise_map
  rw [hkeys]
  constructor
  · rintro ⟨-, h⟩
    exact h.imp (hpair _ _).mp
  · intro h
    exact ⟨heach, h.imp (hpair _ _).mpr⟩

theorem nodup_sites :
    ((sites es).map fun s => (s.1, k s.2)).Nodup ↔
      (es.map fun e => k e.file).Nodup ∧
        ∀ e ∈ es, k e.file ≠ k "index.js" ∧ k e.file ≠ k "commons.js" := by
  rw [sites, List.map_append, List.map_flatMap]
  simp only [List.map_map, Function.comp_def]
  rw [List.nodup_append, nodup_entitySites]
  have hbatch : ([(resolversDir, "index.js"), (schemasDir, "commons.js"),
      (modelsDir, "index.js")].map fun s => (s.1, k s.2)).Nodup := by
    refine List.Nodup.of_map Prod.fst ?_
    rw [List.map_map]
    show [resolversDir, schemasDir, modelsDir].Nodup
    decide
  constructor
  · rintro ⟨hown, -, hapart⟩
    refine ⟨hown, fun e he => ⟨fun hk => ?_, fun hk => ?_⟩⟩
    · refine hapart (resolversDir, k e.file) ?_ (resolversDir, k "index.js") ?_ (by rw [hk])
      · exact List.mem_flatMap.mpr ⟨e, he, List.mem_map.mpr ⟨_, resolversDir_mem e, rfl⟩⟩
      · exact List.mem_cons_self
    · refine hapart (schemasDir, k e.file) ?_ (schemasDir, k "commons.js") ?_ (by rw [hk])
      · exact List.mem_flatMap.mpr ⟨e, he, List.mem_map.mpr ⟨_, schemasDir_mem e, rfl⟩⟩
      · exact List.mem_cons_of_mem _ List.mem_cons_self
  · rintro ⟨hown, hapart⟩
    refine ⟨hown, hbatch, ?_⟩
    intro site hsite site' hsite' heq
    obtain ⟨e, he, hsite⟩ := List.mem_flatMap.mp hsite
    obtain ⟨d, -, rfl⟩ := List.mem_map.mp hsite
    obtain ⟨hindex, hcommons⟩ := hapart e he
    -- a file of the batch is called `index.js` or `commons.js`
    simp only [List.map_cons, List.map_nil, List.mem_cons, List.not_mem_nil, or_false] at hsite'
    rcases hsite' with rfl | rfl | rfl
    · exact hindex (Prod.mk.inj heq).2
    · exact hcommons (Prod.mk.inj heq).2
    · exact hindex (Prod.mk.inj heq).2

end Keys

end Request

/-! ## Paths of attempts -/

namespace Named

variable {outputDir : Path} {ts : List Moment} {rs : List Request} {as : List Attempt}

/-- The paths that need no stamp are among the paths of the attempts, in their order. -/
theorem fixedPaths_sublist (h : Named outputDir ts rs as) :
    (Request.fixedPaths rs).Sublist (as.map Attempt.path) := by
  induction h with
  | nil => exact .slnil
  | fixed hr _ ih =>
      rw [Request.fixedPaths, List.map_cons, hr]
      exact ih.cons_cons _
  | stamped hr _ ih =>
      rw [Request.fixedPaths, List.map_cons, hr]
      exact ih.cons _

/-- The path of an attempt needs no stamp, or it is made from one of the times. -/
theorem mem_paths (h : Named outputDir ts rs as) {p : Path} (hp : p ∈ as.map Attempt.path) :
    p ∈ Request.fixedPaths rs ∨
      ∃ t ∈ ts, ∃ d, .stamped d ∈ rs.map Request.place ∧ p = pathFor outputDir t d := by
  obtain ⟨a, ha, rfl⟩ := List.mem_map.mp hp
  obtain ⟨r, hr, -, hplace | ⟨t, ht, d, hplace, hpath⟩⟩ := h.exists_request ha
  · refine Or.inl (List.mem_filterMap.mpr ⟨r.place, List.mem_map_of_mem hr, ?_⟩)
    rw [hplace]
    rfl
  · exact Or.inr ⟨t, ht, d, hplace ▸ List.mem_map_of_mem hr, hpath⟩

/-- A relation between paths holds throughout if it holds of paths without stamps, of a path
    without a stamp and one with a stamp, and of paths with different stamps. Of what stands behind
    the stamps, `Good` may be known. -/
theorem pairwise {R : Path → Path → Prop} {Good : String → Prop} (h : Named outputDir ts rs as)
    (hsymm : ∀ p q, R p q → R q p) (hfixed : (Request.fixedPaths rs).Pairwise R)
    (hmixed : ∀ p ∈ Request.fixedPaths rs, ∀ t d, Good d → R p (pathFor outputDir t d))
    (hstamped : ∀ t u, t ≠ u → ∀ d d', Good d → Good d' →
      R (pathFor outputDir t d) (pathFor outputDir u d'))
    (hgood : ∀ d, .stamped d ∈ rs.map Request.place → Good d)
    (hts : ts.Pairwise (· < ·)) : (as.map Attempt.path).Pairwise R := by
  induction h with
  | nil => exact List.Pairwise.nil
  | @fixed ts r rs as path hr hnamed ih =>
      have hpaths : Request.fixedPaths (r :: rs) = path :: Request.fixedPaths rs := by
        rw [Request.fixedPaths, List.map_cons, hr]
        rfl
      rw [hpaths] at hfixed hmixed
      obtain ⟨hfirst, hfixed⟩ := List.pairwise_cons.mp hfixed
      have hgood' := fun d hd => hgood d (List.mem_cons_of_mem _ hd)
      refine List.pairwise_cons.mpr
        ⟨?_, ih hfixed (fun p hp => hmixed p (List.mem_cons_of_mem _ hp)) hgood' hts⟩
      intro p hp
      rw [Request.path_at]
      rcases hnamed.mem_paths hp with hp | ⟨t, -, d, hd, rfl⟩
      · exact hfirst p hp
      · exact hmixed path List.mem_cons_self t d (hgood' d hd)
  | @stamped t ts r rs as d hr hnamed ih =>
      have hpaths : Request.fixedPaths (r :: rs) = Request.fixedPaths rs := by
        rw [Request.fixedPaths, List.map_cons, hr]
        rfl
      rw [hpaths] at hfixed hmixed
      obtain ⟨hlt, hts⟩ := List.pairwise_cons.mp hts
      have hd : Good d := hgood d (by rw [List.map_cons, hr]; exact List.mem_cons_self)
      have hgood' := fun d hd => hgood d (List.mem_cons_of_mem _ hd)
      refine List.pairwise_cons.mpr ⟨?_, ih hfixed hmixed hgood' hts⟩
      intro p hp
      rw [Request.path_at]
      rcases hnamed.mem_paths hp with hp | ⟨u, hu, d', hd', rfl⟩
      · exact hsymm _ _ (hmixed p hp t d hd)
      · exact hstamped t u (hlt u hu).ne d d' hd (hgood' d' hd')

/-- However paths are looked at: if the directory and the file name of a site can be told from
    what is seen, and a stamp from what is seen of the file name, then the files of a run have
    sites of their own exactly if the entities have names of their own. -/
theorem nodup_look_iff {γ κ : Type} {settings : Settings} {es : List Entity}
    (h : Named settings.outputDir ts (Request.all settings es) as) (look : Path → γ)
    (told : String × κ → γ) (k : String → κ) (Good : String → Prop) (hts : ts.Pairwise (· < ·))
    (htold : Function.Injective told)
    (hlook : ∀ d f, Path.IsName d → Good f →
      look (settings.outputDir.site (d, f)) = told (d, k f))
    (hbatch : Good "index.js" ∧ Good "commons.js") (hentity : ∀ e ∈ es, Good e.file)
    (hstamped : ∀ d, .stamped d ∈ (Request.all settings es).map Request.place →
      ∀ t : Moment, Good (t.file d))
    (htime : ∀ (t u : Moment) d d', k (t.file d) = k (u.file d') → t = u) :
    (as.map fun a => look a.path).Nodup ↔
      (es.map fun e => k e.file).Nodup ∧
        ∀ e ∈ es, k e.file ≠ k "index.js" ∧ k e.file ≠ k "commons.js" := by
  have hgood : ∀ s ∈ Request.sites es, Good s.2 := by
    intro s hs
    rcases Request.mem_sites hs with ⟨e, he, -, hfile⟩ | ⟨-, hfile | hfile⟩
    · rw [hfile]
      exact hentity e he
    · rw [hfile]
      exact hbatch.1
    · rw [hfile]
      exact hbatch.2
  have hseen : ∀ s ∈ Request.sites es,
      look (settings.outputDir.site s) = told (s.1, k s.2) := fun s hs =>
    hlook s.1 s.2 (Request.isName_dir hs).1 (hgood s hs)
  have hsites : ((Request.fixedPaths (Request.all settings es)).map look).Nodup ↔
      ((Request.sites es).map fun s => (s.1, k s.2)).Nodup := by
    have hmap : (Request.sites es).map (look ∘ settings.outputDir.site) =
        (Request.sites es).map (told ∘ fun s => (s.1, k s.2)) := List.map_congr_left hseen
    rw [Request.fixedPaths_all, List.map_map, hmap, ← List.map_map, List.nodup_map_iff htold]
  rw [← Request.nodup_sites, ← hsites]
  have has : (as.map fun a => look a.path) = (as.map Attempt.path).map look := by
    rw [List.map_map]
    rfl
  rw [has]
  constructor
  · exact (h.fixedPaths_sublist.map look).nodup
  · intro hnodup
    rw [List.Nodup, List.pairwise_map] at hnodup ⊢
    refine h.pairwise (fun p q hne => Ne.symm hne) hnodup ?_ ?_ hstamped hts
    · intro p hp t d hd
      rw [Request.fixedPaths_all] at hp
      obtain ⟨s, hs, rfl⟩ := List.mem_map.mp hp
      rw [hseen s hs, pathFor_eq_site, hlook _ _ Request.isName_migrationsDir (hd t)]
      exact fun heq => (Request.isName_dir hs).2 (Prod.mk.inj (htold heq)).1
    · intro t u htu d d' hd hd'
      rw [pathFor_eq_site, pathFor_eq_site, hlook _ _ Request.isName_migrationsDir (hd t),
        hlook _ _ Request.isName_migrationsDir (hd' u)]
      exact fun heq => htu (htime t u d d' (Prod.mk.inj (htold heq)).2)

end Named

end Scaffold
