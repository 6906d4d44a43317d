import Scaffold.Proofs.Decimal.Numerals
import Scaffold.Proofs.Naming.Segment
import Scaffold.Proofs.Settings.Fields

/-!
# Texts from the environment

  The value of a variable is read as a truth value or a number if it can be, also
  when the setting holds a text, and then the setting gets the text of what has been
  read. So a text arrives as it is exactly if it is no such word or numeral, or is
  spelled in the one way in which what it tells is written.
-/

namespace Scaffold.Settings

open Decimal
open Files (Tree)

/-! ## What a text becomes -/

/-- The words that are read as truth values, in any letter case. -/
def flagWords : List String := ["true", "false"]

/-- What a text for a setting becomes on its way through a variable. -/
def arriving (value : String) : String := (Given.ofVariable value).text?.getD value

variable {value : String}

theorem ofVariable_of_word {b : Bool} (h : Text.lower value = Given.flagText b) :
    Given.ofVariable value = .flag b := by
  rw [Given.ofVariable.eq_def, h]
  cases b <;> rfl

theorem ofVariable_of_not_word (h : Text.lower value ∉ flagWords) : Given.ofVariable value =
    match (integer? value.toList).filter fitsWord with
    | some i => .integer i
    | none => match Double.ofChars? value.toList with
      | some d => .double d
      | none => .text value := by
  rw [Given.ofVariable.eq_def]
  split
  · rename_i htrue
    exact absurd (by rw [htrue]; decide) h
  · rename_i hfalse
    exact absurd (by rw [hfalse]; decide) h
  · rfl

/-- What a variable can tell. -/
inductive Tells (value : String) : Given → Prop where
  | flag {b : Bool} (word : Text.lower value = Given.flagText b) : Tells value (.flag b)
  | integer {i : Int} (noWord : Text.lower value ∉ flagWords)
      (read : integer? value.toList = some i) (fits : fitsWord i = true) : Tells value (.integer i)
  | double {d : Double} (noWord : Text.lower value ∉ flagWords)
      (read : Double.ofChars? value.toList = some d) : Tells value (.double d)
  | text (noWord : Text.lower value ∉ flagWords) (noNumber : ¬ IsNumeral value.toList) :
      Tells value (.text value)

theorem tells_ofVariable (value : String) : Tells value (Given.ofVariable value) := by
  by_cases hword : Text.lower value ∈ flagWords
  · obtain ⟨b, hb⟩ : ∃ b, Text.lower value = Given.flagText b := by
      simp only [flagWords, List.mem_cons, List.not_mem_nil, or_false] at hword
      rcases hword with h | h
      · exact ⟨true, h⟩
      · exact ⟨false, h⟩
    rw [ofVariable_of_word hb]
    exact .flag hb
  rw [ofVariable_of_not_word hword]
  cases hinteger : (integer? value.toList).filter fitsWord with
  | some i =>
      obtain ⟨hread, hfits⟩ := Option.filter_eq_some_iff.mp hinteger
      exact .integer hword hread hfits
  | none =>
      cases hdouble : Double.ofChars? value.toList with
      | some d => exact .double hword hdouble
      | none =>
          refine .text hword fun hnumeral => ?_
          rw [← isSome_ofChars?_iff, hdouble] at hnumeral
          exact nomatch hnumeral

theorem ofVariable_of_no_numeral (hword : Text.lower value ∉ flagWords)
    (hnumeral : ¬ IsNumeral value.toList) : Given.ofVariable value = .text value := by
  have hinteger : integer? value.toList = none := by
    rw [← Option.not_isSome_iff_eq_none, isSome_integer?_iff]
    exact fun h => hnumeral h.isNumeral
  have hdouble : Double.ofChars? value.toList = none := by
    rw [← Option.not_isSome_iff_eq_none, isSome_ofChars?_iff]
    exact hnumeral
  rw [ofVariable_of_not_word hword, hinteger, hdouble]
  rfl

theorem text?_ofVariable (value : String) :
    (Given.ofVariable value).text? = some (arriving value) := by
  have htells := tells_ofVariable value
  rw [arriving]
  generalize Given.ofVariable value = given at htells ⊢
  cases htells <;> rfl

/-- A word for a truth value has letters only. -/
theorem isAlpha_of_word (h : Text.lower value ∈ flagWords) :
    ∀ c ∈ value.toList, c.isAlpha = true := by
  have hletters : ∀ word ∈ flagWords, ∀ d ∈ word.toList,
      d.isAlpha = true ∧ Text.isAscii d = true ∧ d ≠ 'k' := by simp [flagWords, Text.isAscii]
  have hletter := hletters _ h
  rw [Text.lower, String.toList_ofList] at hletter
  have hascii : ∀ c ∈ value.toList, Text.isAscii c = true := by
    intro c hc
    by_contra hnot
    obtain ⟨d, hd, hor⟩ := Naming.exists_mem_lowerFrom hc (Bool.eq_false_of_not_eq_true hnot) []
    obtain ⟨-, hdascii, hk⟩ := hletter d hd
    rcases hor with hfalse | rfl
    · exact Bool.false_ne_true (hfalse.symm.trans hdascii)
    · exact hk rfl
  intro c hc
  refine isAlpha_of_toLower (hletter c.toLower ?_).1
  rw [Text.lowerChars, Naming.lowerFrom_ascii hascii]
  exact List.mem_map_of_mem hc

theorem not_isAlpha_of_isDigit {c : Char} (h : c.isDigit = true) : c.isAlpha = false := by
  have hascii : Text.isAscii c = true := by
    have hcode : c.toNat ≤ 57 := (Char.isDigit_iff_toNat.mp h).2
    exact decide_eq_true (by omega)
  have hall := Text.forall_ascii (p := fun c => !(c.isDigit && c.isAlpha)) (by decide) hascii
  simpa [h] using hall

/-- A whole number arrives in the one spelling in which it is written. -/
theorem ofVariable_toString {i : Int} (h : fitsWord i = true) :
    Given.ofVariable (toString i) = .integer i := by
  have hnoWord : Text.lower (toString i) ∉ flagWords := by
    intro hword
    have hletters := isAlpha_of_word hword
    rw [toList_toString] at hletters
    obtain ⟨d, hd⟩ := List.exists_mem_of_ne_nil (Nat.toDigits 10 i.natAbs) Nat.toDigits_ne_nil
    have hdigit := not_isAlpha_of_isDigit (allDigits_toDigits i.natAbs d hd)
    exact Bool.false_ne_true (hdigit.symm.trans (hletters d (List.mem_append_right _ hd)))
  rw [ofVariable_of_not_word hnoWord, integer?_toString, Option.filter_some, if_pos h]

/-- The texts that arrive as they are. -/
theorem arriving_eq_self_iff (value : String) : arriving value = value ↔
    value ∈ flagWords ∨ (∃ i, fitsWord i = true ∧ value = toString i) ∨
      (∃ d, Given.ofVariable value = .double d ∧ value = d.text) ∨
      Text.lower value ∉ flagWords ∧ ¬ IsNumeral value.toList := by
  rw [arriving]
  constructor
  · intro h
    generalize hgiven : Given.ofVariable value = given at h
    have htells := tells_ofVariable value
    rw [hgiven] at htells
    cases htells with
    | @flag b word =>
        refine Or.inl ?_
        rw [← h]
        cases b with
        | true => exact List.mem_cons_self
        | false => exact List.mem_cons_of_mem _ List.mem_cons_self
    | @integer i noWord read fits => exact Or.inr (Or.inl ⟨i, fits, h.symm⟩)
    | @double d noWord read => exact Or.inr (Or.inr (Or.inl ⟨d, rfl, h.symm⟩))
    | text noWord noNumber => exact Or.inr (Or.inr (Or.inr ⟨noWord, noNumber⟩))
  · rintro (hword | ⟨i, hfits, rfl⟩ | ⟨d, hdouble, htext⟩ | ⟨hnoWord, hnoNumber⟩)
    · simp only [flagWords, List.mem_cons, List.not_mem_nil, or_false] at hword
      rcases hword with rfl | rfl
      · rfl
      · rfl
    · rw [ofVariable_toString hfits]
      rfl
    · rw [hdouble]
      exact htext.symm
    · rw [ofVariable_of_no_numeral hnoWord hnoNumber]
      rfl

/-- A text with a character that comes up in no numeral arrives as it is. -/
theorem arriving_of_mem {c : Char} (hc : c ∈ value.toList) (h : isNumeric c = false) :
    arriving value = value := by
  have hword : Text.lower value ∉ flagWords := by
    intro hword
    have hletter := isAlpha_of_word hword c hc
    simp [isNumeric, Char.isAlphanum, hletter] at h
  have hnumeral : ¬ IsNumeral value.toList := fun hnumeral =>
    Bool.false_ne_true (h.symm.trans (hnumeral.isNumeric c hc))
  exact (arriving_eq_self_iff value).mpr (Or.inr (Or.inr (Or.inr ⟨hword, hnumeral⟩)))

/-! ## Fields that hold texts -/

namespace Field

/-- The fields that hold a text, or a path. -/
def textFields : List Field :=
  [modelsDir, outputDir, includeModels, excludeModels, formatCommand, logLevel]

/-- The text that a field holds, if there is one. -/
def textIn (s : Settings) : Field → Option String
  | modelsDir => some s.modelsDir.text
  | outputDir => some s.outputDir.text
  | includeModels => some s.includeModels
  | excludeModels => some s.excludeModels
  | formatCommand => s.formatCommand
  | logLevel => s.logLevel
  | generateMigrations | strictAssociations | dryRun => none

/-- The settings with a text in a field that holds one. -/
def put (s : Settings) (text : String) : Field → Settings
  | modelsDir => { s with modelsDir := ⟨text⟩ }
  | outputDir => { s with outputDir := ⟨text⟩ }
  | includeModels => { s with includeModels := text }
  | excludeModels => { s with excludeModels := text }
  | formatCommand => { s with formatCommand := some text }
  | logLevel => { s with logLevel := some text }
  | generateMigrations | strictAssociations | dryRun => s

variable {f g : Field} {s : Settings} {text : String}

theorem textIn_put (hf : f ∈ textFields) (s : Settings) (text : String) :
    f.textIn (f.put s text) = some text := by
  cases f <;> first | rfl | exact absurd hf (by decide)

theorem held_put_of_ne (h : g ≠ f) (s : Settings) (text : String) :
    g.held (f.put s text) = g.held s := by
  cases f <;> cases g <;> first | rfl | exact absurd rfl h

theorem name_injective (h : g.name = f.name) : g = f := by
  cases f <;> cases g <;> first | rfl | exact absurd h (by decide)

/-- A value that has a text gives it to every field that holds one. -/
theorem reads_iff_of_text? (hf : f ∈ textFields) {v : Given} (hv : v.text? = some text) :
    f.reads (some v) = some (f.held s) ↔ f.textIn s = some text := by
  have hpath : ∀ p : Path,
      (Conversion.lenient.path? v).map Held.path = some (.path p) ↔ some p.text = some text := by
    intro p
    refine (map_hold_eq_some_iff fun _ _ => Held.path.inj).trans ?_
    show v.text?.map Path.mk = some ⟨p.text⟩ ↔ _
    rw [hv, Option.map_some, Option.some.injEq, Path.mk.injEq, Option.some.injEq]
    exact eq_comm
  have htext : ∀ x : String, v.text?.map Held.text = some (.text x) ↔ some x = some text := by
    intro x
    refine (map_hold_eq_some_iff fun _ _ => Held.text.inj).trans ?_
    rw [hv]
    exact eq_comm
  have hoptional : ∀ x : Option String,
      (Conversion.lenient.optional (some v)).map Held.optional = some (.optional x) ↔
        x = some text := by
    intro x
    have hv' : Conversion.lenient.optional (some v) = some (some text) := by
      cases v with
      | null => exact nomatch hv
      | _ => exact congrArg (Option.map some) hv
    refine (map_hold_eq_some_iff fun _ _ => Held.optional.inj).trans ?_
    rw [hv', Option.some.injEq]
    exact eq_comm
  cases f with
  | modelsDir => exact hpath s.modelsDir
  | outputDir => exact hpath s.outputDir
  | includeModels => exact htext s.includeModels
  | excludeModels => exact htext s.excludeModels
  | formatCommand => exact hoptional s.formatCommand
  | logLevel => exact hoptional s.logLevel
  | generateMigrations | strictAssociations | dryRun => exact absurd hf (by decide)

end Field

/-! ## Loading -/

section Loading

variable {f : Field} {t : Tree} {env : Environment} {name : Option Path} {s : Settings}
  {es : Toml.Entries} {key : String}

/-- The text of a variable arrives in its field. -/
theorem textIn_of_variable (hf : f ∈ Field.textFields) (henv : env.setting? f.name = some value)
    (hs : load t env name = .ok s) : f.textIn s = some (arriving value) := by
  obtain ⟨lower, -, hsettings⟩ := load_eq_ok_iff.mp hs
  have hreads := Field.settings_eq_some_iff.mp hsettings f
  rw [get?_ofEnvironment_of_load hs, henv] at hreads
  exact (Field.reads_iff_of_text? hf (text?_ofVariable value)).mp hreads

/-- A text in a file stays as it is. -/
theorem textIn_of_file (hf : f ∈ Field.textFields) (h : FileGives t name es)
    (henv : env.setting? f.name = none) (hfile : es.get? f.name = some (.text value))
    (hs : load t env name = .ok s) : f.textIn s = some value := by
  have hreads := ((h.load_eq_ok_iff (get?_ofEnvironment_of_load hs)).mp hs).2 f
  rw [given, henv, hfile] at hreads
  exact (Field.reads_iff_of_text? hf rfl).mp hreads

/-- A variable for a setting that no other one is for adds a value to the environment's layer. -/
theorem ofEnvironment_insert (hvariable : settingOf? key = some f.name)
    (henv : env.setting? f.name = none) (value : String) :
    Layer.ofEnvironment (env.insert key value) =
      (Layer.ofEnvironment env).insert f.name (Given.ofVariable value) := by
  have hnew : key ∉ env.entries.map Prod.fst := by
    intro hmem
    obtain ⟨e, he, rfl⟩ := List.mem_map.mp hmem
    rw [Environment.setting?, Option.map_eq_none_iff, List.find?_eq_none] at henv
    exact henv e (List.mem_reverse.mpr he) (beq_iff_eq.mpr hvariable)
  have hentries : (env.insert key value).entries = env.entries ++ [(key, value)] :=
    putEntry_of_notMem hnew value
  rw [Layer.ofEnvironment, hentries, List.filterMap_append, Layer.ofList, List.map_append,
    Dict.ofList, Dict.insertAll, List.foldl_append]
  show Dict.insertAll _ (List.map _ (List.filterMap _ [(key, value)])) = _
  rw [List.filterMap_cons, hvariable]
  show Dict.insertAll _ [placed f.name (Given.ofVariable value)] = _
  rw [f.placed_name]
  rfl

/-- With one more variable settings are loaded exactly if its text arrives in its field and all
    other fields can be converted from what is given for them. -/
theorem load_insert_iff (hf : f ∈ Field.textFields)
    (hvariable : settingOf? key = some f.name) (henv : env.setting? f.name = none) :
    load t (env.insert key value) name = .ok s ↔ f.textIn s = some (arriving value) ∧
      ∃ lower, lowerLayer t name = .ok lower ∧ ∀ g : Field, g ≠ f →
        g.reads (((Layer.ofEnvironment env).get? g.name).or (lower.get? g.name)) =
          some (g.held s) := by
  have hown : (Layer.ofEnvironment (env.insert key value)).get? f.name =
      some (Given.ofVariable value) := by
    rw [ofEnvironment_insert hvariable henv, Dict.get?_insert, if_pos rfl]
  have hother : ∀ g : Field, g ≠ f → (Layer.ofEnvironment (env.insert key value)).get? g.name =
      (Layer.ofEnvironment env).get? g.name := by
    intro g hg
    rw [ofEnvironment_insert hvariable henv, Dict.get?_insert,
      if_neg fun h => hg (Field.name_injective h)]
  have hreads := Field.reads_iff_of_text? (s := s) hf (text?_ofVariable value)
  rw [load_eq_ok_iff]
  constructor
  · rintro ⟨lower, hlower, hsettings⟩
    rw [Field.settings_eq_some_iff] at hsettings
    refine ⟨hreads.mp ?_, lower, hlower, fun g hg => ?_⟩
    · have hfield := hsettings f
      rwa [hown, Option.some_or] at hfield
    · have hfield := hsettings g
      rwa [hother g hg] at hfield
  · rintro ⟨htext, lower, hlower, hfields⟩
    refine ⟨lower, hlower, Field.settings_eq_some_iff.mpr fun g => ?_⟩
    by_cases hg : g = f
    · rw [hg, hown, Option.some_or]
      exact hreads.mpr htext
    · rw [hother g hg]
      exact hfields g hg

theorem load_put (hf : f ∈ Field.textFields) (hvariable : settingOf? key = some f.name)
    (henv : env.setting? f.name = none) {lower : Layer} (hlower : lowerLayer t name = .ok lower)
    (hfields : ∀ g : Field, g ≠ f →
      g.reads (((Layer.ofEnvironment env).get? g.name).or (lower.get? g.name)) = some (g.held s)) :
    load t (env.insert key value) name = .ok (f.put s (arriving value)) := by
  refine (load_insert_iff hf hvariable henv).mpr
    ⟨f.textIn_put hf s _, lower, hlower, fun g hg => ?_⟩
  rw [Field.held_put_of_ne hg]
  exact hfields g hg

end Loading

/-- A text that is given for a setting by a variable arrives in its field as the text of what it
    has been read as, whatever else is given, and nothing else changes. It arrives as it is exactly
    if it is one of the two words in small letters, or a whole number of 64 bits or a double as
    these are written, or no such word in any letter case and no numeral. -/
theorem texts_arrive {f : Field} (hf : f ∈ Field.textFields) (t : Tree) (name : Option Path)
    (value : String) :
    (∀ (env : Environment) (s : Settings), env.setting? f.name = some value →
      load t env name = .ok s → f.textIn s = some (arriving value)) ∧
    (∀ (env : Environment) (key : String), settingOf? key = some f.name →
      env.setting? f.name = none →
      (∀ s, load t env name = .ok s →
        load t (env.insert key value) name = .ok (f.put s (arriving value))) ∧
      ∀ s other, load t (env.insert key other) name = .ok s →
        load t (env.insert key value) name = .ok (f.put s (arriving value))) ∧
    (arriving value = value ↔
      value ∈ flagWords ∨ (∃ i, fitsWord i = true ∧ value = toString i) ∨
      (∃ d, Given.ofVariable value = .double d ∧ value = d.text) ∨
      Text.lower value ∉ flagWords ∧ ¬ IsNumeral value.toList) := by
  refine ⟨fun env s henv hs => textIn_of_variable hf henv hs, ?_, arriving_eq_self_iff value⟩
  intro env key hkey henv
  refine ⟨fun s hs => ?_, fun s other hs => ?_⟩
  · obtain ⟨lower, hlower, hsettings⟩ := load_eq_ok_iff.mp hs
    exact load_put hf hkey henv hlower fun g _ => Field.settings_eq_some_iff.mp hsettings g
  · obtain ⟨-, lower, hlower, hfields⟩ := (load_insert_iff hf hkey henv).mp hs
    exact load_put hf hkey henv hlower hfields

theorem texts_arrive_sample : Field.modelsDir ∈ Field.textFields ∧
    load (.empty "here") (Dict.empty.insert "CRUDGEN_CODEGEN_MODELS_DIR" "007") none =
      .ok (Field.modelsDir.put {} (arriving "007")) := by
  have hmem : Field.modelsDir ∈ Field.textFields := by decide
  have harrive := (texts_arrive hmem (.empty "here") none "007").2.1 Dict.empty
    "CRUDGEN_CODEGEN_MODELS_DIR" (by decide +kernel) rfl
  exact ⟨hmem, harrive.1 {} (by decide +kernel)⟩

/-- Names that look like numbers lose their zeros on the way. -/
theorem texts_changed :
    load (.empty "here") (Dict.ofList [("CRUDGEN_CODEGEN_MODELS_DIR", "007"),
      ("CRUDGEN_CODEGEN_OUTPUT_DIR", "007"), ("CRUDGEN_CODEGEN_INCLUDE_MODELS", "007"),
      ("CRUDGEN_CODEGEN_EXCLUDE_MODELS", "007"), ("CRUDGEN_CODEGEN_FORMAT_COMMAND", "007")]) none =
    .ok { modelsDir := ⟨"7"⟩, outputDir := ⟨"7"⟩, includeModels := "7", excludeModels := "7",
          formatCommand := some "7" } := by
  decide +kernel

end Scaffold.Settings
