import Scaffold.Proofs.Settings.Layers
import Scaffold.Proofs.Toml.Keys

/-!
# Fields of settings

  What is loaded can be told field by field: a field holds what its variable in
  the environment says if that is set, or else what the file says, or else its
  default. Names with dots could lead into a value of another layer, but what
  they leave there cannot be converted, so where settings are loaded at all no
  such name has had a part in them.
-/

namespace Scaffold.Settings

open Files (Tree)

/-! ## Fields -/

/-- The fields of settings. -/
inductive Field where
  | modelsDir
  | outputDir
  | includeModels
  | excludeModels
  | generateMigrations
  | strictAssociations
  | formatCommand
  | dryRun
  | logLevel
  deriving DecidableEq

/-- What a field holds. -/
inductive Held where
  | path (p : Path)
  | text (s : String)
  | flag (b : Bool)
  | optional (s : Option String)
  deriving DecidableEq

namespace Field

/-- The name under which a field is given. -/
def name : Field → String
  | modelsDir => "models_dir"
  | outputDir => "output_dir"
  | includeModels => "include_models"
  | excludeModels => "exclude_models"
  | generateMigrations => "generate_migrations"
  | strictAssociations => "strict_associations"
  | formatCommand => "format_command"
  | dryRun => "dry_run"
  | logLevel => "log_level"

/-- What a field holds in settings. -/
def held (s : Settings) : Field → Held
  | modelsDir => .path s.modelsDir
  | outputDir => .path s.outputDir
  | includeModels => .text s.includeModels
  | excludeModels => .text s.excludeModels
  | generateMigrations => .flag s.generateMigrations
  | strictAssociations => .flag s.strictAssociations
  | formatCommand => .optional s.formatCommand
  | dryRun => .flag s.dryRun
  | logLevel => .optional s.logLevel

/-- What a given value becomes in a field, if it can be converted. -/
def convert (v : Given) : Field → Option Held
  | modelsDir | outputDir => (Conversion.lenient.path? v).map .path
  | includeModels | excludeModels => v.text?.map .text
  | generateMigrations | strictAssociations | dryRun => v.flag?.map .flag
  | formatCommand | logLevel => (Conversion.lenient.optional (some v)).map .optional

/-- What a field holds, if that is given for it: the value converted, or else its default. -/
def reads (f : Field) : Option Given → Option Held
  | none => some (f.held {})
  | some v => f.convert v

/-- A value with parts goes into no field. -/
theorem convert_compound (f : Field) : f.convert .compound = none := by
  cases f <;> rfl

/-- The name of a field leads into no value. -/
theorem placed_name (f : Field) (v : Given) : placed f.name v = (f.name, v) := by
  cases f <;> rfl

/-- How settings convert each field. -/
theorem reads_eq (f : Field) (o : Option Given) :
    f.reads o = match f with
      | modelsDir => (Conversion.field Conversion.lenient.path? ⟨""⟩ o).map .path
      | outputDir => (Conversion.field Conversion.lenient.path? ⟨"./generated"⟩ o).map .path
      | includeModels => (Conversion.field Conversion.lenient.text? "*" o).map .text
      | excludeModels => (Conversion.field Conversion.lenient.text? "" o).map .text
      | generateMigrations => (Conversion.field Conversion.lenient.flag? true o).map .flag
      | strictAssociations => (Conversion.field Conversion.lenient.flag? true o).map .flag
      | formatCommand => (Conversion.lenient.optional o).map .optional
      | dryRun => (Conversion.field Conversion.lenient.flag? false o).map .flag
      | logLevel => (Conversion.lenient.optional o).map .optional := by
  cases f <;> cases o <;> rfl

theorem map_hold_eq_some_iff {β : Type} {hold : β → Held} (hhold : Function.Injective hold)
    {o : Option β} {b : β} : o.map hold = some (hold b) ↔ o = some b :=
  (Option.map_injective hhold).eq_iff' rfl

/-- Settings are converted exactly if every field is. -/
theorem settings_eq_some_iff {get? : String → Option Given} {s : Settings} :
    Conversion.lenient.settings get? = some s ↔
      ∀ f : Field, f.reads (get? f.name) = some (f.held s) := by
  have hpath : Function.Injective Held.path := fun _ _ => Held.path.inj
  have htext : Function.Injective Held.text := fun _ _ => Held.text.inj
  have hflag : Function.Injective Held.flag := fun _ _ => Held.flag.inj
  have hoptional : Function.Injective Held.optional := fun _ _ => Held.optional.inj
  rw [Conversion.settings_eq_some_iff]
  constructor
  · rintro ⟨h₁, h₂, h₃, h₄, h₅, h₆, h₇, h₈, h₉⟩ f
    rw [reads_eq]
    cases f with
    | modelsDir => exact (map_hold_eq_some_iff hpath).mpr h₁
    | outputDir => exact (map_hold_eq_some_iff hpath).mpr h₂
    | includeModels => exact (map_hold_eq_some_iff htext).mpr h₃
    | excludeModels => exact (map_hold_eq_some_iff htext).mpr h₄
    | generateMigrations => exact (map_hold_eq_some_iff hflag).mpr h₅
    | strictAssociations => exact (map_hold_eq_some_iff hflag).mpr h₆
    | formatCommand => exact (map_hold_eq_some_iff hoptional).mpr h₇
    | dryRun => exact (map_hold_eq_some_iff hflag).mpr h₈
    | logLevel => exact (map_hold_eq_some_iff hoptional).mpr h₉
  · intro h
    have heach := fun f : Field => (f.reads_eq (get? f.name)).symm.trans (h f)
    exact ⟨(map_hold_eq_some_iff hpath).mp (heach modelsDir),
      (map_hold_eq_some_iff hpath).mp (heach outputDir),
      (map_hold_eq_some_iff htext).mp (heach includeModels),
      (map_hold_eq_some_iff htext).mp (heach excludeModels),
      (map_hold_eq_some_iff hflag).mp (heach generateMigrations),
      (map_hold_eq_some_iff hflag).mp (heach strictAssociations),
      (map_hold_eq_some_iff hoptional).mp (heach formatCommand),
      (map_hold_eq_some_iff hflag).mp (heach dryRun),
      (map_hold_eq_some_iff hoptional).mp (heach logLevel)⟩

/-- Settings are what their fields hold. -/
theorem ext_held {s s' : Settings} (h : ∀ f : Field, f.held s = f.held s') : s = s' := by
  have hmodels := Held.path.inj (h modelsDir)
  have houtput := Held.path.inj (h outputDir)
  have hinclude := Held.text.inj (h includeModels)
  have hexclude := Held.text.inj (h excludeModels)
  have hmigrations := Held.flag.inj (h generateMigrations)
  have hstrict := Held.flag.inj (h strictAssociations)
  have hformat := Held.optional.inj (h formatCommand)
  have hdry := Held.flag.inj (h dryRun)
  have hlog := Held.optional.inj (h logLevel)
  cases s
  cases s'
  simp only [Settings.mk.injEq]
  exact ⟨hmodels, houtput, hinclude, hexclude, hmigrations, hstrict, hformat, hdry, hlog⟩

end Field

/-! ## Names in a layer -/

theorem placed_cases (name : String) (v : Given) :
    placed name v = (name, v) ∨ (placed name v).2 = .compound := by
  rw [placed]
  split
  · exact Or.inr rfl
  · exact Or.inl rfl

/-- The name leads into no value. -/
def IsPlainName (name : String) : Prop := ∀ v, placed name v = (name, v)

/-- What stands under a plain name has been given under it, unless it is a value with parts. -/
theorem lookup_placed {key : String} (hkey : IsPlainName key) (es : List (String × Given)) :
    (es.map fun e => placed e.1 e.2).lookup key = es.lookup key ∨
      (es.map fun e => placed e.1 e.2).lookup key = some .compound := by
  induction es with
  | nil => exact Or.inl rfl
  | cons e es ih =>
      obtain ⟨name, v⟩ := e
      rw [List.map_cons]
      by_cases hname : key = name
      · rw [← hname, hkey v, List.lookup_cons_self, List.lookup_cons_self]
        exact Or.inl rfl
      · have hskip : ((name, v) :: es).lookup key = es.lookup key := by
          rw [List.lookup_cons, beq_eq_false_iff_ne.mpr hname]
        rw [hskip, List.lookup_cons]
        cases hroot : key == (placed name v).1 with
        | false => exact ih
        | true =>
            -- the name in front is another one, so it leads into a value
            rcases placed_cases name v with hplain | hcompound
            · rw [hplain] at hroot
              exact absurd (beq_iff_eq.mp hroot) hname
            · rw [hcompound]
              exact Or.inr rfl

theorem Layer.get?_ofList {key : String} (hkey : IsPlainName key) (es : List (String × Given)) :
    (Layer.ofList es).get? key = es.reverse.lookup key ∨
      (Layer.ofList es).get? key = some .compound := by
  have hget : (Layer.ofList es).get? key =
      (es.reverse.map fun e => placed e.1 e.2).lookup key := by
    rw [Layer.ofList, Dict.ofList, Dict.get?_insertAll, List.map_reverse]
    exact Option.or_none
  rw [hget]
  exact lookup_placed hkey es.reverse

/-- Where all names are plain, the last value under a name counts. -/
theorem Layer.get?_ofList_of_plain {es : List (String × Given)} (h : ∀ e ∈ es, IsPlainName e.1)
    (key : String) : (Layer.ofList es).get? key = es.reverse.lookup key := by
  have hplaced : es.map (fun e => placed e.1 e.2) = es :=
    (List.map_congr_left fun e he => h e he e.2).trans (List.map_id es)
  rw [Layer.ofList, hplaced, Dict.ofList, Dict.get?_insertAll]
  exact Option.or_none

/-! ## Variables -/

/-- The value of the variable for a setting. Of names that differ in their letter case the last
    one counts. -/
def Environment.setting? (env : Environment) (name : String) : Option String :=
  (env.entries.reverse.find? fun e => settingOf? e.1 == some name).map Prod.snd

theorem get?_ofEnvironment {name : String} (hname : IsPlainName name) (env : Environment) :
    (Layer.ofEnvironment env).get? name = (env.setting? name).map Given.ofVariable ∨
      (Layer.ofEnvironment env).get? name = some .compound := by
  have hlookup : ∀ es : List (String × String),
      (es.filterMap fun e => (settingOf? e.1).map fun key => (key, Given.ofVariable e.2)).lookup
        name = (es.find? fun e => settingOf? e.1 == some name).map fun e =>
          Given.ofVariable e.2 := by
    intro es
    induction es with
    | nil => rfl
    | cons e es ih =>
        rw [List.filterMap_cons, List.find?_cons]
        cases settingOf? e.1 with
        | none => exact ih
        | some key =>
            show ((key, Given.ofVariable e.2) :: _).lookup name = _
            by_cases hkey : name = key
            · rw [hkey, List.lookup_cons_self, beq_self_eq_true]
              rfl
            · have hkey' : (some key == some name) = false :=
                beq_eq_false_iff_ne.mpr fun h => hkey (Option.some.inj h).symm
              rw [List.lookup_cons, beq_eq_false_iff_ne.mpr hkey, hkey']
              exact ih
  have hvariable : (env.setting? name).map Given.ofVariable = _ :=
    (Option.map_map _ _ _).trans (hlookup env.entries.reverse).symm
  rw [hvariable, List.filterMap_reverse]
  exact Layer.get?_ofList hname _

/-! ## Files -/

/-- The entries of a TOML file, which are all for fields. -/
inductive FileGives (t : Tree) (name : Option Path) (es : Toml.Entries) : Prop where
  /-- The file that is found for a name, or for the default name. -/
  | file {p : Path} {bytes : ByteArray} (found : fileFor? t (name.getD defaultName) = some (p, .toml))
      (read : t.read p = .ok bytes) (entries : Toml.read (looseText bytes) = some es)
      (fields : ∀ e ∈ es, ∃ f : Field, e.1 = f.name)
  /-- There is no file, and none has been asked for. -/
  | absent (asked : name = none) (found : fileFor? t defaultName = none) (entries : es = [])

/-- What is given for a field: the value of its variable, or else that of the file. -/
def given (env : Environment) (es : Toml.Entries) (f : Field) : Option Given :=
  ((env.setting? f.name).map Given.ofVariable).or ((es.get? f.name).map Given.ofToml)

section Loading

variable {t t' : Tree} {env : Environment} {name : Option Path} {es es' : Toml.Entries}

theorem lowerLayer_file {p : Path} {f : Format}
    (h : fileFor? t (name.getD defaultName) = some (p, f)) : lowerLayer t name = fileLayer t p f := by
  unfold lowerLayer
  rw [h]

theorem lowerLayer_absent (h : fileFor? t defaultName = none) : lowerLayer t none = .ok ∅ := by
  unfold lowerLayer
  rw [Option.getD_none, h]

/-- The layer of a file's entries. -/
def fileGiven (es : Toml.Entries) : Layer := .ofList (es.map fun e => (e.1, Given.ofToml e.2))

/-- A file is a layer if 64 bits hold its whole numbers, and cannot be used otherwise. -/
theorem FileGives.lowerLayer_eq_ok_iff (h : FileGives t name es) {lower : Layer} :
    lowerLayer t name = .ok lower ↔
      Toml.entriesPass Decimal.fitsWord es = true ∧ lower = fileGiven es := by
  cases h with
  | absent asked found entries =>
      subst asked entries
      rw [lowerLayer_absent found]
      exact ⟨fun hok => ⟨rfl, (Except.ok.inj hok).symm⟩, fun hok => congrArg Except.ok hok.2.symm⟩
  | @file p bytes found read entries fields =>
      rw [lowerLayer_file found, fileLayer, read]
      show usable p (Layer.ofToml? (looseText bytes)) = _ ↔ _
      rw [usable_eq_ok_iff, Layer.ofToml?, entries]
      show (if _ then some (fileGiven es) else none) = some lower ↔ _
      split
      · rename_i hfits
        exact ⟨fun hsome => ⟨hfits, (Option.some.inj hsome).symm⟩, fun hok => congrArg some hok.2.symm⟩
      · rename_i hfits
        exact ⟨nofun, fun hok => absurd hok.1 hfits⟩

theorem FileGives.distinct (h : FileGives t name es) : es.Distinct := by
  cases h with
  | absent asked found entries =>
      rw [entries]
      exact List.nodup_nil
  | file found read entries fields => exact Toml.distinct_of_read entries

theorem FileGives.isPlainName (h : FileGives t name es) {e : String × Toml.Value} (he : e ∈ es) :
    IsPlainName e.1 := by
  cases h with
  | absent asked found entries =>
      rw [entries] at he
      exact nomatch he
  | file found read entries fields =>
      obtain ⟨f, hf⟩ := fields e he
      rw [hf]
      exact f.placed_name

theorem FileGives.get?_fileGiven (h : FileGives t name es) (key : String) :
    (fileGiven es).get? key = (es.get? key).map Given.ofToml := by
  have hplain : ∀ e ∈ es.map fun e => (e.1, Given.ofToml e.2), IsPlainName e.1 := by
    intro e he
    obtain ⟨e', he', rfl⟩ := List.mem_map.mp he
    exact h.isPlainName he'
  have hdistinct : ((es.map fun e => (e.1, Given.ofToml e.2)).map Prod.fst).Nodup := by
    rw [List.map_map]
    exact h.distinct
  rw [fileGiven, Layer.get?_ofList_of_plain hplain, Dict.lookup_reverse_of_nodup hdistinct]
  exact Dict.lookup_map_snd Given.ofToml es key

/-- Where settings are loaded, the environment has left no value with parts under a field. -/
theorem get?_ofEnvironment_of_load {s : Settings} (hs : load t env name = .ok s) (f : Field) :
    (Layer.ofEnvironment env).get? f.name = (env.setting? f.name).map Given.ofVariable := by
  obtain ⟨lower, -, hs⟩ := load_eq_ok_iff.mp hs
  have hreads := Field.settings_eq_some_iff.mp hs f
  rcases get?_ofEnvironment f.placed_name env with hplain | hcompound
  · exact hplain
  · rw [hcompound, Option.some_or, Field.reads, Field.convert_compound] at hreads
    exact nomatch hreads

/-- Settings are loaded exactly if the file is a layer and every field can be converted from what
    is given for it, as long as the environment leaves no value with parts. -/
theorem FileGives.load_eq_ok_iff (h : FileGives t name es)
    (henv : ∀ f : Field, (Layer.ofEnvironment env).get? f.name =
      (env.setting? f.name).map Given.ofVariable) {s : Settings} :
    load t env name = .ok s ↔ Toml.entriesPass Decimal.fitsWord es = true ∧
      ∀ f : Field, f.reads (given env es f) = some (f.held s) := by
  rw [Settings.load_eq_ok_iff]
  have hgiven : ∀ f : Field, ((Layer.ofEnvironment env).get? f.name).or
      ((fileGiven es).get? f.name) = given env es f := by
    intro f
    rw [henv f, h.get?_fileGiven, given]
  constructor
  · rintro ⟨lower, hlower, hs⟩
    obtain ⟨hfits, rfl⟩ := h.lowerLayer_eq_ok_iff.mp hlower
    refine ⟨hfits, fun f => ?_⟩
    rw [← hgiven f]
    exact Field.settings_eq_some_iff.mp hs f
  · rintro ⟨hfits, hreads⟩
    refine ⟨fileGiven es, h.lowerLayer_eq_ok_iff.mpr ⟨hfits, rfl⟩, ?_⟩
    rw [Field.settings_eq_some_iff]
    intro f
    rw [hgiven f]
    exact hreads f

/-- The file has no part in a field whose variable is set. -/
theorem given_congr {f : Field} (h : env.setting? f.name = none → es'.get? f.name = es.get? f.name) :
    given env es' f = given env es f := by
  rw [given, given]
  cases hvariable : env.setting? f.name with
  | some value => rfl
  | none => rw [h hvariable]

/-- What variables cover can be changed in the file, as long as the file stays a layer. -/
theorem load_of_agree (h : FileGives t name es) (h' : FileGives t' name es')
    (hagree : ∀ f : Field, env.setting? f.name = none → es'.get? f.name = es.get? f.name)
    (hfits : Toml.entriesPass Decimal.fitsWord es' = true) {s : Settings}
    (hs : load t env name = .ok s) : load t' env name = .ok s := by
  have henv := get?_ofEnvironment_of_load hs
  obtain ⟨-, hreads⟩ := (h.load_eq_ok_iff henv).mp hs
  refine (h'.load_eq_ok_iff henv).mpr ⟨hfits, fun f => ?_⟩
  rw [given_congr (hagree f)]
  exact hreads f

end Loading

end Scaffold.Settings
