import Scaffold.Proofs.Definition.RoundTrip
import Scaffold.Proofs.Json.CutReading

/-!
# Damaged definitions

  A definition whose end is missing is no JSON, wherever it was cut: in a key,
  an escape, a number, a member that is passed over or between two fields. A
  definition with something behind it is no JSON either. In no case is it taken
  for another definition, and no field is reported as lacking or as wrong.
-/

namespace Scaffold.Definition

open Json

/-! ## The readers of a definition -/

theorem noticesCuts_readText : NoticesCuts readText where
  broken := .notJson
  cut hcut hv := by
    cases hcut with
    | broken => exact .notJson
    | number | unfinishedNumber | array | noItem | item | object | member => exact nomatch hv

theorem noticesCuts_readOptional : NoticesCuts readOptional where
  broken := .notJson
  cut hcut hv := by
    cases hcut with
    | broken => exact .notJson
    | number | unfinishedNumber | array | noItem | item | object | member => exact nomatch hv

theorem noticesCuts_readStorage : NoticesCuts readStorage where
  broken := .notJson
  cut hcut hv := by
    cases hcut with
    | broken => exact .notJson
    | number | unfinishedNumber | array | noItem | item | object | member => exact nomatch hv

theorem noticesCuts_readTexts : NoticesCuts readTexts where
  broken := .notJson
  cut {u v a} hcut hv := by
    cases v with
    | array items closed =>
        obtain ⟨texts, htexts, -⟩ := bind_eq_ok_iff.mp hv
        rcases noticesCuts_readText.items hcut htexts with rfl | ⟨items', rfl, hitems⟩
        · exact .notJson
        · exact hitems.bind fun _ _ => .notJson
    | null | bool | number | text | object | broken => exact nomatch hv

theorem noticesCuts_readDict {α : Type} {read : Tree → Except ReadError α}
    (hread : NoticesCuts read) : NoticesCuts (readDict read) where
  broken := .notJson
  cut {u v a} hcut hv := by
    cases v with
    | object members closed =>
        obtain ⟨d, hd, -⟩ := bind_eq_ok_iff.mp hv
        have hput : ∀ {d d' : Dict α} {key u v}, u.CutOf v → putMember read d (key, v) = .ok d' →
            Faultless (putMember read d (key, u)) := by
          intro d d' key u v hcut h
          unfold putMember at h ⊢
          split
          · exact .notJson
          · rename_i k hk
            rw [hk] at h
            obtain ⟨w, hw, -⟩ := bind_eq_ok_iff.mp h
            exact (hread.cut hcut hw).bind fun _ _ => .ok _
        rcases hcut.members hput hd with rfl | ⟨members', rfl, hmembers⟩
        · exact .notJson
        · exact hmembers.bind fun _ _ => .notJson
    | null | bool | number | text | array | broken => exact nomatch hv

theorem noticesCuts_readAssociation : NoticesCuts readAssociation := by
  refine Record.noticesCuts_ofTree (fun f => ?_) rfl
  cases f with
  | type | target => exact noticesCuts_readText
  | targetStorageType => exact noticesCuts_readStorage
  | targetKey | sourceKey | keysIn => exact noticesCuts_readOptional

theorem noticesCuts_definition :
    NoticesCuts (definitionRecord.ofTree (mismatch definitionRecord.title)) := by
  refine Record.noticesCuts_ofTree (fun f => ?_) rfl
  cases f with
  | model => exact noticesCuts_readText
  | storageType => exact noticesCuts_readStorage
  | attributes => exact noticesCuts_readDict noticesCuts_readText
  | associations => exact noticesCuts_readDict noticesCuts_readAssociation
  | indices => exact noticesCuts_readTexts

/-! ## Texts -/

/-- What is left of the tree of a definition is no JSON. -/
theorem ofTree_of_cutOf {u v : Tree} (hcut : u.CutOf v) {d : Definition}
    (h : definitionRecord.ofTree (mismatch definitionRecord.title) v = .ok d) :
    definitionRecord.ofTree (mismatch definitionRecord.title) u = .error .notJson :=
  (noticesCuts_definition.cut hcut h).eq_notJson (Record.ofTree_ne_ok hcut)

theorem parseFrom_of_ofText {text : String} (h : ofText text = .error .notJson) (origin : String) :
    parseFrom origin text = .error (.notJson origin) := by
  rw [parseFrom, parse, h]
  rfl

theorem ofText_of_ofTree {text : String}
    (h : definitionRecord.ofTree (mismatch definitionRecord.title) (Tree.read (tokens text)).1 =
      .error .notJson) : ofText text = .error .notJson := by
  rw [ofText]
  dsimp only
  rw [h]
  rfl

theorem ofText_of_rest {text : String} {d : Definition}
    (h : definitionRecord.ofTree (mismatch definitionRecord.title) (Tree.read (tokens text)).1 =
      .ok d) (hrest : (Tree.read (tokens text)).2 ≠ []) : ofText text = .error .notJson := by
  rw [ofText]
  dsimp only
  rw [h, List.isEmpty_eq_false_iff.mpr hrest]
  rfl

/-- **Damage shows.** If a text holds a definition, what is left of it when more than white space is
    taken from its end is no JSON, and it is no JSON with more than white space put behind it. -/
theorem parseFrom_of_damage {origin text : String} {d : Definition}
    (h : parseFrom origin text = .ok d) :
    (∀ p r, text = p ++ r → (∃ c ∈ r.toList, isSpace c = false) →
      parseFrom origin p = .error (.notJson origin)) ∧
    ∀ r, (∃ c ∈ r.toList, isSpace c = false) →
      parseFrom origin (text ++ r) = .error (.notJson origin) := by
  obtain ⟨htree, hrest⟩ := ofText_eq_ok_iff.mp (parse_eq_ok_iff.mp (parseFrom_eq_ok_iff.mp h)).1
  constructor
  · rintro p r rfl hr
    refine parseFrom_of_ofText (ofText_of_ofTree ?_) origin
    rcases Tree.read_append p hr with ⟨-, hbehind⟩ | hcut
    · exact absurd hrest hbehind
    · exact ofTree_of_cutOf hcut htree
  · intro r hr
    refine parseFrom_of_ofText ?_ origin
    rcases Tree.read_append text hr with ⟨hsame, hbehind⟩ | hcut
    · rw [hsame] at htree
      exact ofText_of_rest htree hbehind
    · exact absurd htree (Record.ofTree_ne_ok hcut d)

/-- A cut inside of an escape, and a bracket too many. -/
theorem parseFrom_of_damage_sample :
    (∃ d, parseFrom "a.json" ("[\"a\",\"sql\",\x7b\"\\u00" ++ "e9\":\"b\"\x7d] ") = .ok d) ∧
      parseFrom "a.json" "[\"a\",\"sql\",\x7b\"\\u00" = .error (.notJson "a.json") ∧
      parseFrom "a.json" ("[\"a\",\"sql\",\x7b\"\\u00" ++ "e9\":\"b\"\x7d] " ++ "]") =
        .error (.notJson "a.json") := by
  obtain ⟨d, h⟩ : ∃ d, parseFrom "a.json"
      ("[\"a\",\"sql\",\x7b\"\\u00" ++ "e9\":\"b\"\x7d] ") = .ok d := ⟨_, by rfl⟩
  exact ⟨⟨d, h⟩, (parseFrom_of_damage h).1 _ _ rfl ⟨'9', by decide, by decide⟩,
    (parseFrom_of_damage h).2 _ ⟨']', by decide, by decide⟩⟩

end Scaffold.Definition
