import Mathlib.Data.List.DropRight
import Scaffold.Proofs.Definition.RoundTrip
import Scaffold.Proofs.Path
import Scaffold.Proofs.Run.OwnFiles
import Scaffold.Run.Build

/-!
# Models that are given as lists

  A builder and a manifest take lists of models, but settings keep one text for
  each list: its elements between commas. What the text is taken apart into are
  plain names, without commas and without blanks at either end. So a list
  stands for the plain names that its elements are made of, and it stands for
  its elements if they are plain themselves. A model whose name is not plain can
  be neither included nor excluded by any list.
-/

namespace Scaffold

/-! ## Trimmed text -/

namespace Text

theorem trimChars_eq (cs : List Char) :
    trimChars cs = (cs.dropWhile isBlank).rdropWhile isBlank := rfl

theorem trimChars_idem (cs : List Char) : trimChars (trimChars cs) = trimChars cs := by
  have hfront : (trimChars cs).dropWhile isBlank = trimChars cs := by
    refine List.dropWhile_eq_self_iff.mpr fun hpos => ?_
    have htrimmed : trimChars cs <+: cs.dropWhile isBlank := List.rdropWhile_prefix isBlank _
    rw [htrimmed.getElem hpos]
    exact List.dropWhile_get_zero_not isBlank cs _
  rw [trimChars_eq (trimChars cs), hfront, trimChars_eq]
  exact List.rdropWhile_idempotent _ _

theorem mem_of_mem_trimChars {c : Char} {cs : List Char} (h : c ∈ trimChars cs) : c ∈ cs :=
  (List.dropWhile_sublist isBlank).mem ((List.rdropWhile_prefix isBlank _).sublist.mem h)

/-- Nothing but blanks is trimmed off. -/
theorem mem_trimChars {c : Char} {cs : List Char} (hc : isBlank c = false) (h : c ∈ cs) :
    c ∈ trimChars cs := by
  have hkept : ∀ {ds : List Char}, c ∈ ds → c ∈ ds.dropWhile isBlank := by
    intro ds hds
    rw [← List.takeWhile_append_dropWhile (p := isBlank) (l := ds)] at hds
    rcases List.mem_append.mp hds with hblank | hrest
    · exact nomatch hc.symm.trans (List.mem_takeWhile_imp hblank)
    · exact hrest
  exact List.mem_reverse.mpr (hkept (List.mem_reverse.mpr (hkept h)))

theorem isBlankText_iff (s : String) : isBlankText s = true ↔ trim s = "" := by
  rw [isBlankText, List.all_eq_true, trim, String.ofList_eq_empty_iff]
  constructor
  · intro hblank
    rw [trimChars_eq, List.dropWhile_eq_nil_iff.mpr hblank]
    rfl
  · intro hnil c hc
    by_contra hblank
    have hmem := mem_trimChars (Bool.eq_false_iff.mpr hblank) hc
    rw [hnil] at hmem
    exact nomatch hmem

end Text

/-! ## Plain names -/

namespace Selection

/-- A name that can stand between commas. -/
def IsPlain (name : String) : Prop := ',' ∉ name.toList ∧ Text.trim name = name

instance (name : String) : Decidable (IsPlain name) :=
  inferInstanceAs (Decidable (_ ∧ _))

theorem isPlain_of_mem_names {list name : String} (h : name ∈ names list) : IsPlain name := by
  obtain ⟨piece, hpiece, rfl⟩ := List.mem_map.mp h
  constructor
  · rw [String.toList_ofList]
    exact fun hcomma => Text.notMem_of_mem_splitAt hpiece (Text.mem_of_mem_trimChars hcomma)
  · rw [Text.trim, String.toList_ofList, Text.trimChars_idem]

theorem names_of_isPlain {name : String} (h : IsPlain name) : names name = [name] := by
  rw [names, Text.splitAt_of_notMem h.1]
  exact congrArg ([·]) h.2

/-- The names that a list of models stands for. -/
def spelled (models : List String) : List String := models.flatMap names

theorem names_intercalate {models : List String} (h : models ≠ []) :
    names (",".intercalate models) = spelled models := by
  have hnil : models.map String.toList ≠ [] := fun h' => h (List.map_eq_nil_iff.mp h')
  have hcomma : ",".toList = [','] := rfl
  rw [names, String.toList_intercalate, hcomma, Text.splitAt_intercalate ',' hnil,
    List.flatMap_map, List.map_flatMap]
  rfl

theorem spelled_of_isPlain {models : List String} (h : ∀ name ∈ models, IsPlain name) :
    spelled models = models := by
  induction models with
  | nil => rfl
  | cons name models ih =>
      obtain ⟨hname, hrest⟩ := List.forall_mem_cons.mp h
      show names name ++ spelled models = name :: models
      rw [names_of_isPlain hname, ih hrest]
      rfl

theorem isPlain_of_mem_spelled {models : List String} {name : String} (h : name ∈ spelled models) :
    IsPlain name := by
  obtain ⟨list, -, hname⟩ := List.mem_flatMap.mp h
  exact isPlain_of_mem_names hname

/-! ## What lists choose -/

/-- A list of one element that is a star or nothing stands for every model. -/
def includesAll : List String → Bool
  | [list] => Text.trim list = "*" || Text.isBlankText list
  | _ => false

theorem includesAll_of_isPlain {models : List String} (h : ∀ name ∈ models, IsPlain name)
    (hstar : models ≠ ["*"]) (hempty : models ≠ [""]) : includesAll models = false := by
  cases models with
  | nil => rfl
  | cons name rest =>
      cases rest with
      | cons other rest => rfl
      | nil =>
          have htrim := (h name List.mem_cons_self).2
          rw [includesAll, Bool.or_eq_false_iff, decide_eq_false_iff_not, ← Bool.not_eq_true,
            Text.isBlankText_iff, htrim]
          exact ⟨fun hname => hstar (congrArg ([·]) hname), fun hname => hempty (congrArg ([·]) hname)⟩

/-- Two elements with a comma between them are more than a star. -/
theorem starOrBlank_intercalate {models : List String} (h : models ≠ []) :
    (Text.trim (",".intercalate models) = "*" || Text.isBlankText (",".intercalate models)) =
      includesAll models := by
  cases models with
  | nil => exact absurd rfl h
  | cons name rest =>
      cases rest with
      | nil => rw [String.intercalate_singleton, includesAll]
      | cons other rest =>
          -- the comma is no blank, so it is still there when the text is trimmed
          have hcomma : ',' ∈ (",".intercalate (name :: other :: rest)).toList := by
            rw [String.intercalate_cons_cons]
            simp
          have hkept : ',' ∈ (Text.trim (",".intercalate (name :: other :: rest))).toList := by
            rw [Text.trim, String.toList_ofList]
            exact Text.mem_trimChars (by decide) hcomma
          show _ = false
          rw [Bool.or_eq_false_iff, decide_eq_false_iff_not, ← Bool.not_eq_true,
            Text.isBlankText_iff]
          constructor
          · intro hstar
            rw [hstar] at hkept
            exact absurd hkept (by decide)
          · intro hempty
            rw [hempty] at hkept
            exact absurd hkept (by decide)

theorem included_of_lists {models : List String} (h : models ≠ []) (excludes : String) :
    (of (",".intercalate models) excludes).included =
      if includesAll models then none else some (spelled models) := by
  rw [of, starOrBlank_intercalate h, names_intercalate h]

theorem mem_excluded_of_lists (includes : String) (models : List String) (name : String) :
    name ∈ (of includes (",".intercalate models)).excluded ↔ name ∈ spelled models ∧ name ≠ "" := by
  have hnames : (of includes (",".intercalate models)).excluded =
      (spelled models).filter (!·.isEmpty) := by
    cases models with
    | nil => rfl
    | cons first models => rw [of, names_intercalate (List.cons_ne_nil first models)]
  rw [hnames, List.mem_filter, Bool.not_eq_true', ← Bool.not_eq_true, String.isEmpty_iff]

/-- The lists choose models of that name: the first stands for it, and the second does not. A name
    that is empty is never excluded. -/
def Chosen (included excluded : List String) (name : String) : Prop :=
  (includesAll included = true ∨ name ∈ spelled included) ∧ (name ∉ spelled excluded ∨ name = "")

instance (included excluded : List String) (name : String) :
    Decidable (Chosen included excluded name) :=
  inferInstanceAs (Decidable (_ ∧ _))

theorem admits_of_lists {included : List String} (h : included ≠ []) (excluded : List String)
    (name : String) :
    (of (",".intercalate included) (",".intercalate excluded)).admits name = true ↔
      Chosen included excluded name := by
  have hexcluded : (!(of (",".intercalate included) (",".intercalate excluded)).excluded.contains
      name) = true ↔ name ∉ spelled excluded ∨ name = "" := by
    rw [Bool.not_eq_true', ← Bool.not_eq_true, List.contains_iff_mem, mem_excluded_of_lists,
      not_and_or, not_not]
  rw [admits, included_of_lists h, Bool.and_eq_true, hexcluded, Chosen]
  refine and_congr_left' ?_
  cases includesAll included with
  | true => exact iff_of_true rfl (Or.inl rfl)
  | false =>
      rw [if_neg Bool.false_ne_true]
      exact List.contains_iff_mem.trans (or_iff_right Bool.false_ne_true).symm

end Selection

/-! ## Settings with lists -/

/-- Settings that keep a list of models to include and one of models to exclude, from a builder
    or from the section of a manifest. -/
inductive GivenModels (included excluded : List String) : Settings → Prop where
  | builder (s : Settings) : GivenModels included excluded ((s.including included).excluding excluded)
  | manifest {given : Settings.Section} {env : Settings.Environment} {dir : Path} {s : Settings} :
      given.includeModels = included → given.excludeModels = excluded →
      given.settings env dir = .ok s → GivenModels included excluded s

/-- The lists of a section come into its settings unless they are empty. -/
theorem Settings.Section.exists_of_settings {given : Settings.Section}
    {env : Settings.Environment} {dir : Path} {s : Settings} (h : given.settings env dir = .ok s) :
    ∃ all : Settings, all.excludeModels = "" ∧
      s = if given.excludeModels.isEmpty then
          (if given.includeModels.isEmpty then all else all.including given.includeModels)
        else (if given.includeModels.isEmpty then all
          else all.including given.includeModels).excluding given.excludeModels := by
  rw [settings] at h
  cases hmodels : given.modelsDir with
  | none =>
      rw [hmodels] at h
      exact nomatch h
  | some models =>
      rw [hmodels] at h
      obtain ⟨modelsDir, -, h⟩ := bind_eq_ok_iff.mp h
      cases houtput : given.outputDir with
      | some output =>
          rw [houtput] at h
          obtain ⟨outputDir, -, h⟩ := bind_eq_ok_iff.mp h
          cases h
          exact ⟨_, rfl, rfl⟩
      | none =>
          rw [houtput] at h
          obtain ⟨outputDir, -, h⟩ := bind_eq_ok_iff.mp h
          cases h
          exact ⟨_, rfl, rfl⟩

theorem GivenModels.texts {included excluded : List String} {s : Settings} (h : included ≠ [])
    (hs : GivenModels included excluded s) :
    s.includeModels = ",".intercalate included ∧ s.excludeModels = ",".intercalate excluded := by
  cases hs with
  | builder s => exact ⟨rfl, rfl⟩
  | manifest hincluded hexcluded hs =>
      obtain ⟨all, hexcludes, rfl⟩ := Settings.Section.exists_of_settings hs
      have hsome : ¬ included.isEmpty = true := by rwa [List.isEmpty_iff]
      rw [hincluded, hexcluded, if_neg hsome]
      cases excluded with
      | nil => exact ⟨rfl, hexcludes⟩
      | cons name excluded => exact ⟨rfl, rfl⟩

/-- What the lists leave of loaded definitions: those that failed, and those of the models that are
    chosen. -/
def Loaded.isChosen (included excluded : List String) (l : Loaded) : Bool :=
  match l.definition with
  | .ok d => decide (Selection.Chosen included excluded d.name)
  | .error _ => true

theorem keeps_of_lists {included excluded : List String} {s : Settings} (h : included ≠ [])
    (hs : GivenModels included excluded s) (l : Loaded) :
    (Selection.of s.includeModels s.excludeModels).keeps l = l.isChosen included excluded := by
  obtain ⟨hincludes, hexcludes⟩ := hs.texts h
  rw [Selection.keeps, Loaded.isChosen, hincludes, hexcludes]
  cases l.definition with
  | error f => rfl
  | ok d =>
      exact Bool.eq_iff_iff.mpr
        ((Selection.admits_of_lists h excluded d.name).trans decide_eq_true_iff.symm)

theorem Definition.name_ne_empty {origin text : String} {d : Definition}
    (h : parseFrom origin text = .ok d) : d.name ≠ "" := by
  intro hname
  have hfault := (parse_eq_ok_iff.mp (parseFrom_eq_ok_iff.mp h)).2
  rw [nameFault, hname] at hfault
  exact nomatch hfault

open Selection in
/-- **Lists select by plain names.** What lists leave of any definitions are those that failed and
    those that are chosen. If all elements are plain, and the first list is not a star or an empty
    name alone, the models chosen are the elements of the first list that are not in the second.
    A definition that is accepted is excluded by its own name if that is plain; and if it is not, no
    list excludes it, and none includes it but one that stands for every model. -/
theorem lists_select {included excluded : List String} {s : Settings} (h : included ≠ [])
    (hs : GivenModels included excluded s) :
    (∀ batch : List Loaded, batch.filter (Selection.of s.includeModels s.excludeModels).keeps =
      batch.filter (Loaded.isChosen included excluded)) ∧
    (∀ files, s.batch files =
      (Definition.loadAll files s.modelsDir).map (·.filter (Loaded.isChosen included excluded))) ∧
    ((∀ name ∈ included ++ excluded, IsPlain name) → included ≠ ["*"] → included ≠ [""] →
      ∀ name, Chosen included excluded name ↔ name ∈ included ∧ (name ∉ excluded ∨ name = "")) ∧
    ∀ origin text d, Definition.parseFrom origin text = .ok d →
      d.name ≠ "" ∧
      (IsPlain d.name → d.name ∈ excluded → ¬ Chosen included excluded d.name) ∧
      (¬ IsPlain d.name → (Chosen included excluded d.name ↔ includesAll included = true)) := by
  have hkeeps : (Selection.of s.includeModels s.excludeModels).keeps =
      Loaded.isChosen included excluded := funext (keeps_of_lists h hs)
  refine ⟨fun batch => by rw [hkeeps], fun files => ?_, fun hplain hstar hempty name => ?_,
    fun origin text d hd => ⟨Definition.name_ne_empty hd, fun hplain hmem hchosen => ?_,
      fun hplain => ?_⟩⟩
  · rw [Settings.batch, hkeeps]
    cases Definition.loadAll files s.modelsDir with
    | error f => rfl
    | ok batch => rfl
  · obtain ⟨hincluded, hexcluded⟩ := List.forall_mem_append.mp hplain
    rw [Chosen, includesAll_of_isPlain hincluded hstar hempty, spelled_of_isPlain hincluded,
      spelled_of_isPlain hexcluded, or_iff_right Bool.false_ne_true]
  · have hspelled : d.name ∈ spelled excluded := by
      refine List.mem_flatMap.mpr ⟨d.name, hmem, ?_⟩
      rw [names_of_isPlain hplain]
      exact List.mem_cons_self
    rcases hchosen.2 with hnot | hnone
    · exact hnot hspelled
    · exact Definition.name_ne_empty hd hnone
  · -- what the lists stand for is plain, so the name is not there
    have hnot : ∀ models, d.name ∉ spelled models :=
      fun models hmem => hplain (isPlain_of_mem_spelled hmem)
    rw [Chosen, or_iff_left (hnot included), and_iff_left (Or.inl (hnot excluded))]

/-- The section of a manifest with two plain names to include and one of them to exclude. -/
def draftless : Settings.Section where
  modelsDir := some "models"
  outputDir := some "out"
  includeModels := ["book", "draft"]
  excludeModels := ["draft"]
  generateMigrations := none
  strictAssociations := none
  formatCommand := none

/-- The definition of that name is left, and one that is not accepted because it has no name. -/
theorem lists_select_sample :
    ∃ s, draftless.settings .empty ⟨"package"⟩ = .ok s ∧
      [remoteDefinition "book", remoteDefinition "draft", remoteDefinition "", remoteDefinition "tag"].filter
        (Selection.of s.includeModels s.excludeModels).keeps =
          [remoteDefinition "book", remoteDefinition ""] ∧
      ∀ name, Selection.Chosen ["book", "draft"] ["draft"] name ↔ name = "book" := by
  obtain ⟨s, hs⟩ : ∃ s, draftless.settings .empty ⟨"package"⟩ = .ok s := ⟨_, rfl⟩
  have hgiven : GivenModels ["book", "draft"] ["draft"] s := .manifest rfl rfl hs
  obtain ⟨hfilter, -, hnames, -⟩ := lists_select (List.cons_ne_nil _ _) hgiven
  refine ⟨s, hs, ?_, fun name => ?_⟩
  · rw [hfilter, List.filter_cons_of_pos (by decide +kernel),
      List.filter_cons_of_neg (by decide +kernel), List.filter_cons_of_pos (by decide +kernel),
      List.filter_cons_of_neg (by decide +kernel), List.filter_nil]
  · rw [hnames (by decide) (by decide) (by decide)]
    constructor
    · rintro ⟨hmem, hnot | rfl⟩
      · simp only [List.mem_cons, List.not_mem_nil, or_false] at hmem hnot
        exact hmem.resolve_right hnot
      · exact absurd hmem (by decide)
    · rintro rfl
      decide

/-- Names with commas cannot be selected: a list of `a,b` alone leaves out the model of that name
    and keeps the one that is called `a`, and the model stays when `a,b` is excluded. -/
theorem not_always_selected :
    (∃ d, (remoteDefinition "a,b").definition = .ok d ∧ d.name = "a,b") ∧
    (∃ s, GivenModels ["a,b"] [] s ∧
      (Selection.of s.includeModels s.excludeModels).keeps (remoteDefinition "a,b") = false ∧
      (Selection.of s.includeModels s.excludeModels).keeps (remoteDefinition "a") = true) ∧
    ∃ s, GivenModels ["*"] ["a,b"] s ∧
      (Selection.of s.includeModels s.excludeModels).keeps (remoteDefinition "a,b") = true := by
  refine ⟨?_, ⟨_, .builder {}, by decide +kernel, by decide +kernel⟩, _, .builder {},
    by decide +kernel⟩
  have hname : (remoteDefinition "a,b").definition.map Definition.name = .ok "a,b" := by
    decide +kernel
  exact map_eq_ok_iff.mp hname

end Scaffold
