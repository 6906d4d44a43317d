import Scaffold.CommandLine.Ending
import Scaffold.Proofs.CommandLine.Arguments
import Scaffold.Proofs.Files.Writing
import Scaffold.Proofs.Settings.Fields

/-!
# Which layer decides about a field

  Options of a command line go above the environment, the environment above a
  file, and a file above the defaults. Each field is decided by the uppermost
  layer that speaks of it, and no layer has a part in any other field. Only the
  option for a dry run works in one direction: it can ask for one, but not
  against it.
-/

namespace Scaffold.CommandLine

open Settings (Field Held FileGives Environment given)

/-! ## Options as arguments -/

namespace Slot

/-- The argument of an option with a value, which stands behind an equals sign. -/
def argument (slot : Slot) (value : String) : String := "--" ++ slot.name ++ "=" ++ value

theorem ofText_argument (slot : Slot) (value : String) :
    Argument.ofText (slot.argument value) = .option slot (some value) := by
  have hlist : (slot.argument value).toList =
      '-' :: '-' :: (slot.name.toList ++ '=' :: value.toList) := by
    simp [argument]
  -- the name holds no equals sign, so the first one is that before the value
  have hlong : Argument.ofText (slot.argument value) =
      .ofLong (String.ofList slot.name.toList) (some (String.ofList value.toList)) := by
    unfold Argument.ofText
    rw [hlist]
    cases slot <;> rfl
  rw [hlong, String.ofList_toList, String.ofList_toList]
  cases slot <;> rfl

end Slot

namespace Options

/-- The options with another value for one of them, or without it. -/
def set (o : Options) (slot : Slot) (value : Option Path) : Options :=
  match slot with
  | .config => { o with config := value }
  | .models => { o with models := value }
  | .output => { o with output := value }

theorem set_self (o : Options) (slot : Slot) : o.set slot (o.get? slot) = o := by
  cases slot <;> rfl

theorem give_eq_set {o : Options} {slot : Slot} {p : Path} (hfree : o.get? slot = none)
    (hp : p.text ≠ "") : o.give slot p.text = some (o.set slot (some p)) := by
  have hgives : ¬ (p.text.isEmpty || (o.get? slot).isSome) = true := by
    rw [hfree, Option.isSome_none, Bool.or_false, String.isEmpty_iff]
    exact hp
  unfold give
  rw [if_neg hgives]
  cases slot <;> rfl

/-- The arguments that give options. -/
def arguments (o : Options) : List String :=
  (Slot.all.flatMap fun slot => (o.get? slot).toList.map fun p => slot.argument p.text) ++
    if o.dryRun then [dryRunWord] else []

end Options

namespace Invocation

theorem read_argument {o o' : Options} {slot : Slot} {value : String}
    (h : o.give slot value = some o') (rest : List String) :
    read o none (slot.argument value :: rest) = read o' none rest := by
  rw [read.eq_def]
  simp only [Slot.ofText_argument, Options.settle, h]

theorem read_dryRunWord {o : Options} (h : o.dryRun = false) (rest : List String) :
    read o none (dryRunWord :: rest) = read { o with dryRun := true } none rest := by
  rw [read.eq_def]
  simp only [Argument.ofText_dryRunWord, Options.settle, h, if_false, Bool.false_eq_true]

theorem read_value {o : Options} {slot : Slot} {value : Option Path} (hfree : o.get? slot = none)
    (hvalue : ∀ p, value = some p → p.text ≠ "") (rest : List String) :
    read o none ((value.toList.map fun p => slot.argument p.text) ++ rest) =
      read (o.set slot value) none rest := by
  cases value with
  | none =>
      have hset : o.set slot none = o := by rw [← hfree, Options.set_self]
      rw [hset]
      rfl
  | some p => exact read_argument (Options.give_eq_set hfree (hvalue p rfl)) rest

/-- Whatever follows the arguments of some options is read behind these options. -/
theorem ofArguments_arguments {o : Options} (h : ∀ slot p, o.get? slot = some p → p.text ≠ "")
    (rest : List String) : ofArguments (o.arguments ++ rest) = read o none rest := by
  have hslots : ∀ rest, ofArguments
      ((Slot.all.flatMap fun slot => (o.get? slot).toList.map fun p => slot.argument p.text) ++
        rest) = read { o with dryRun := false } none rest := by
    intro rest
    simp only [Slot.all, List.flatMap_cons, List.flatMap_nil, List.append_nil, List.append_assoc]
    rw [ofArguments, read_value rfl (h .config), read_value rfl (h .models),
      read_value rfl (h .output)]
    rfl
  rw [Options.arguments, List.append_assoc, hslots]
  obtain ⟨config, models, output, dryRun⟩ := o
  cases dryRun with
  | false => rfl
  | true => exact read_dryRunWord rfl rest

end Invocation

/-! ## Options above the other layers -/

/-- What options put into a field. -/
def Options.held? (o : Options) : Field → Option Held
  | .modelsDir => o.models.map .path
  | .outputDir => o.output.map .path
  | .dryRun => if o.dryRun then some (.flag true) else none
  | _ => none

theorem Options.held_over (o : Options) (s : Settings) (f : Field) :
    f.held (o.over s) = (o.held? f).getD (f.held s) := by
  obtain ⟨config, models, output, dryRun⟩ := o
  cases f with
  | modelsDir => cases models <;> rfl
  | outputDir => cases output <;> rfl
  | dryRun => cases dryRun <;> rfl
  | _ => rfl

/-- The settings of a command line are loaded ones with what its options put into them. -/
theorem Options.settings_eq_ok_iff {o : Options} {t : Files.Tree} {env : Environment}
    {s' : Settings} : o.settings t env = .ok s' ↔ ∃ s, Settings.load t env o.config = .ok s ∧
      ∀ f : Field, f.held s' = (o.held? f).getD (f.held s) := by
  rw [settings, map_eq_ok_iff]
  refine exists_congr fun s => and_congr_right fun _ => ?_
  constructor
  · rintro rfl
    exact o.held_over s
  · intro h
    exact Field.ext_held fun f => (o.held_over s f).trans (h f).symm

/-- **Layers do not leak.** Whatever a TOML file gives for fields, and in every environment: each
    field that is loaded is what its variable says if that is set, else what the file says, else its
    default. What the file says about fields whose variables are set can be anything, or nothing,
    and the same settings are loaded, as long as the file is readable at all, which takes whole
    numbers that 64 bits hold. And options go above both layers, wherever they get their values. -/
theorem layers_decide {t : Files.Tree} {env : Environment} {name : Option Path} {es : Toml.Entries}
    (h : FileGives t name es) :
    (∀ s, Settings.load t env name = .ok s →
      ∀ f : Field, f.reads (given env es f) = some (f.held s)) ∧
    (∀ t' es', FileGives t' name es' →
      (∀ f : Field, env.setting? f.name = none → es'.get? f.name = es.get? f.name) →
        ∀ s, Settings.load t env name = .ok s →
          (∀ s', Settings.load t' env name = .ok s' → s' = s) ∧
          (Toml.entriesPass Decimal.fitsWord es' = true → Settings.load t' env name = .ok s)) ∧
    ∀ o : Options, o.config = name →
      (∀ s', o.settings t env = .ok s' ↔ ∃ s, Settings.load t env name = .ok s ∧
        ∀ f : Field, f.held s' = (o.held? f).getD (f.held s)) ∧
      ((∀ slot p, o.get? slot = some p → p.text ≠ "") → ∀ rest,
        Invocation.ofArguments (o.arguments ++ rest) = .read o none rest) := by
  refine ⟨fun s hs => ?_, fun t' es' h' hagree s hs => ⟨fun s' hs' => ?_, fun hfits => ?_⟩,
    fun o ho => ⟨fun s' => ?_, fun hvalues rest => ?_⟩⟩
  · exact ((h.load_eq_ok_iff (Settings.get?_ofEnvironment_of_load hs)).mp hs).2
  · have henv := Settings.get?_ofEnvironment_of_load hs'
    obtain ⟨hfits, -⟩ := (h'.load_eq_ok_iff henv).mp hs'
    exact Except.ok.inj (hs'.symm.trans (Settings.load_of_agree h h' hagree hfits hs))
  · exact Settings.load_of_agree h h' hagree hfits hs
  · rw [← ho]
    exact Options.settings_eq_ok_iff
  · exact Invocation.ofArguments_arguments hvalues rest

/-- Files with nothing but settings. -/
def settingsTree (text : String) : Files.Tree :=
  ((Files.Tree.empty "here").write ⟨"crudgen-codegen.toml"⟩ text.toUTF8).2

theorem fileGives_settingsTree {text : String} {es : Toml.Entries}
    (hwrite : ((Files.Tree.empty "here").write ⟨"crudgen-codegen.toml"⟩ text.toUTF8).1 = .ok ())
    (hfound : Settings.fileFor? (settingsTree text) Settings.defaultName =
      some (⟨"crudgen-codegen.toml"⟩, .toml))
    (htext : Settings.looseText text.toUTF8 = text) (hread : Toml.read text = some es)
    (hfields : ∀ e ∈ es, ∃ f : Field, e.1 = f.name) : FileGives (settingsTree text) none es :=
  .file hfound (Files.Tree.read_of_write (Prod.ext hwrite rfl)) (htext.symm ▸ hread) hfields

/-- An environment that asks for a dry run. -/
def cautious : Environment := .ofList [("Crudgen_Codegen_Dry_Run", "on")]

/-- The file asks for a dry run by a list, which is no truth value, and a variable asks for one in
    words. Without the list the same settings are loaded, and an option replaces one of them. -/
theorem layers_decide_sample :
    ∃ s, Settings.load (settingsTree "models_dir = \"defs\"\ndry_run = [1]\n") cautious none =
        .ok s ∧
      Settings.load (settingsTree "models_dir = \"defs\"\n") cautious none = .ok s ∧
      Field.held s .modelsDir = .path ⟨"defs"⟩ ∧ Field.held s .dryRun = .flag true ∧
      ∀ s', Options.settings { models := some ⟨"other"⟩ }
          (settingsTree "models_dir = \"defs\"\ndry_run = [1]\n") cautious = .ok s' →
        Field.held s' .modelsDir = .path ⟨"other"⟩ ∧ Field.held s' .dryRun = .flag true := by
  have hlisted : FileGives (settingsTree "models_dir = \"defs\"\ndry_run = [1]\n") none
      [("models_dir", .text "defs"), ("dry_run", .array [.integer 1])] :=
    fileGives_settingsTree (by decide +kernel) (by decide +kernel) (by decide +kernel) rfl
      (List.forall_mem_cons.mpr ⟨⟨.modelsDir, rfl⟩, List.forall_mem_singleton.mpr ⟨.dryRun, rfl⟩⟩)
  have hplain : FileGives (settingsTree "models_dir = \"defs\"\n") none
      [("models_dir", .text "defs")] :=
    fileGives_settingsTree (by decide +kernel) (by decide +kernel) (by decide +kernel) rfl
      (List.forall_mem_singleton.mpr ⟨.modelsDir, rfl⟩)
  have hagree : ∀ f : Field, cautious.setting? f.name = none →
      Toml.Entries.get? [("models_dir", .text "defs")] f.name =
        Toml.Entries.get? [("models_dir", .text "defs"), ("dry_run", .array [.integer 1])] f.name := by
    intro f hf
    cases f with
    | dryRun => exact absurd hf (by decide +kernel)
    | _ => rfl
  have hload : Settings.load (settingsTree "models_dir = \"defs\"\ndry_run = [1]\n") cautious none =
      .ok { modelsDir := ⟨"defs"⟩, dryRun := true } := by
    decide +kernel
  obtain ⟨-, hsame, hoptions⟩ := @layers_decide _ cautious _ _ hlisted
  refine ⟨_, hload, (hsame _ _ hplain hagree _ hload).2 rfl, rfl, rfl, fun s' hs' => ?_⟩
  obtain ⟨s, hs, hheld⟩ := ((hoptions { models := some ⟨"other"⟩ } rfl).1 s').mp hs'
  cases hload.symm.trans hs
  exact ⟨hheld .modelsDir, hheld .dryRun⟩

end Scaffold.CommandLine
