import BackupWatch.Config.Document
import BackupWatch.Proofs.Config.Grammar

/-!
How a document of settings may be written. What counts is the text of the scalar under each key:
the settings may stand alone or under `data` in a manifest, whatever else that holds, in any order,
and numbers and truth values may be written as strings. A document that is no manifest must hold
such settings and nothing else.
-/

namespace BackupWatch.Config

open Yaml

variable {entries data other : List (Value × Value)} {key : String} {v : Value}

inductive IsScalar : Value → Prop
  | string (text : String) : IsScalar (.string text)
  | number (n : Number) : IsScalar (.number n)
  | bool (b : Bool) : IsScalar (.bool b)

def Flat (entries : List (Value × Value)) : Prop :=
  ∀ e ∈ entries, (∃ key, e.1 = .string key) ∧ IsScalar e.2

structure IsManifest (entries : List (Value × Value)) : Prop where
  kind : ∃ kind, Value.find? entries "kind" = some kind
  data : ∃ data, Value.find? entries "data" = some (.mapping data) ∧ Flat data

/-- A scalar, and a scalar that may be written in its place. -/
inductive Respelled : Value → Value → Prop
  | same (v : Value) : Respelled v v
  | integer (n : Nat) :
      Respelled (.number (.integer n)) (.string (String.ofList (Nat.toDigits 10 n)))
  | bool (b : Bool) : Respelled (.bool b) (.string (if b then "true" else "false"))

/-- Settings under the same keys, in any order, some of whose values are written as strings. -/
structure Restates (data other : List (Value × Value)) : Prop where
  flat : Flat other
  respelled : ∀ key, Option.Rel Respelled (Value.find? data key) (Value.find? other key)

/-- The documents that say what some settings say. -/
inductive Writes (data : List (Value × Value)) : Value → Prop
  | alone {other : List (Value × Value)} (h : Restates data other) : Writes data (.mapping other)
  | manifest {entries other : List (Value × Value)} {kind : Value}
      (hkind : Value.find? entries "kind" = some kind)
      (hdata : Value.find? entries "data" = some (.mapping other)) (h : Restates data other) :
      Writes data (.mapping entries)

def Holds (content : ByteArray) (document : Value) : Prop :=
  ∃ text, String.fromUTF8? content = some text ∧ parse text = some document

/-! ## Scalars -/

/-- Scalars are the values that have a text. -/
theorem scalarText?_isSome_iff : (∃ text, scalarText? v = some text) ↔ IsScalar v := by
  constructor
  · rintro ⟨text, htext⟩
    cases v with
    | string s => exact .string s
    | number n => exact .number n
    | bool b => exact .bool b
    | null | sequence | mapping | tagged => cases htext
  · rintro (s | n | b)
    · exact ⟨s, rfl⟩
    · exact ⟨n.text, rfl⟩
    · exact ⟨toString b, rfl⟩

/-- A scalar has the same text when it is written as a string. -/
theorem scalarText?_respelled {w : Value} (h : Respelled v w) : scalarText? w = scalarText? v := by
  cases h with
  | same => rfl
  | integer n => rfl
  | bool b => cases b <;> rfl

/-- An entry is a setting if its key is a string and its value has a text. -/
theorem setting_eq_ok_iff {e : Value × Value} {text : String} :
    setting e = .ok (key, text) ↔ e.1 = .string key ∧ scalarText? e.2 = some text := by
  obtain ⟨k, v⟩ := e
  unfold setting
  cases k with
  | string k =>
    cases scalarText? v with
    | none => simp
    | some shown => simp
  | null | bool | number | sequence | mapping | tagged => simp

theorem setting_isOk_iff {e : Value × Value} :
    (∃ s, setting e = .ok s) ↔ (∃ key, e.1 = .string key) ∧ IsScalar e.2 := by
  rw [Prod.exists, ← scalarText?_isSome_iff]
  simp only [setting_eq_ok_iff, exists_and_left, exists_and_right]

/-! ## Entries -/

/-- Results for a whole list are results for each of its members. -/
theorem mapM_isOk_iff {α β ε : Type} {f : α → Except ε β} {list : List α} :
    (∃ results, list.mapM f = .ok results) ↔ ∀ a ∈ list, ∃ b, f a = .ok b := by
  induction list with
  | nil => exact iff_of_true ⟨[], rfl⟩ fun a ha => nomatch ha
  | cons a rest ih =>
    rw [List.forall_mem_cons, ← ih, List.mapM_cons]
    constructor
    · rintro ⟨results, hresults⟩
      obtain ⟨b, hb, hrest⟩ := bind_eq_ok_iff.mp hresults
      obtain ⟨bs, hbs, _⟩ := bind_eq_ok_iff.mp hrest
      exact ⟨⟨b, hb⟩, bs, hbs⟩
    · rintro ⟨⟨b, hb⟩, bs, hbs⟩
      exact ⟨b :: bs, by rw [hb, hbs]; rfl⟩

/-- What is set for a key is the text of the scalar that stands under it. -/
theorem find?_mapM_setting {settings : Settings} (h : entries.mapM setting = .ok settings)
    (key : String) : settings.find? key = (Value.find? entries key).bind scalarText? := by
  induction entries generalizing settings with
  | nil =>
    cases h
    rfl
  | cons e rest ih =>
    rw [List.mapM_cons] at h
    obtain ⟨⟨k, text⟩, hfirst, hrest⟩ := bind_eq_ok_iff.mp h
    obtain ⟨later, hlater, heq⟩ := bind_eq_ok_iff.mp hrest
    cases heq
    obtain ⟨hkey, htext⟩ := setting_eq_ok_iff.mp hfirst
    have hrec := ih hlater
    unfold Settings.find? Value.find? at hrec ⊢
    rw [List.lookup_cons, List.find?_cons, hkey, Value.same]
    by_cases hsame : k = key
    · simp [hsame, htext]
    · simp only [beq_eq_false_iff_ne.mpr hsame, beq_eq_false_iff_ne.mpr (Ne.symm hsame), hrec]

theorem isScalar_of_find? (hflat : Flat entries) (h : Value.find? entries key = some v) :
    IsScalar v := by
  obtain ⟨e, he, rfl⟩ := Option.map_eq_some_iff.mp h
  exact (hflat e (List.mem_of_find?_eq_some he)).2

theorem Restates.bind_scalarText? (h : Restates data other) (key : String) :
    (Value.find? other key).bind scalarText? = (Value.find? data key).bind scalarText? := by
  have hkey := h.respelled key
  generalize Value.find? data key = before, Value.find? other key = after at hkey
  cases hkey with
  | none => rfl
  | some hsame => exact scalarText?_respelled hsame

theorem settingsOf_of_flat (h : Flat entries) : settingsOf entries = entries := by
  unfold settingsOf
  split
  · next hdata => cases isScalar_of_find? h hdata
  · rfl

theorem settingsOf_manifest {kind : Value} (hkind : Value.find? entries "kind" = some kind)
    (hdata : Value.find? entries "data" = some (.mapping data)) : settingsOf entries = data := by
  simp only [settingsOf, hdata, hkind, Option.isSome_some, if_true]

/-- A mapping is flattened just when the entries that hold its settings are flat. -/
theorem flatten_isOk_iff :
    (∃ settings, flatten (.mapping entries) = .ok settings) ↔ Flat (settingsOf entries) := by
  simp only [flatten, mapM_isOk_iff, setting_isOk_iff, Flat]

/-- Unless it is a manifest, a mapping holds its settings itself. -/
theorem flat_settingsOf_iff (h : ¬ IsManifest entries) :
    Flat (settingsOf entries) ↔ Flat entries := by
  unfold settingsOf
  split
  · next data hdata =>
    have hnot : ¬ Flat entries := fun hflat => nomatch isScalar_of_find? hflat hdata
    split
    -- A manifest but for its data, which stands where the settings would.
    · next hkind =>
      have hkind := Option.isSome_iff_exists.mp hkind
      exact iff_of_false (fun hflat => h ⟨hkind, data, hdata, hflat⟩) hnot
    · rfl
  · rfl

/-! ## Documents and files -/

/-- A document that writes settings is flattened like the settings themselves. -/
theorem Writes.exists_restated {document : Value} (h : Writes data document) :
    ∃ other, Restates data other ∧ flatten document = other.mapM setting := by
  cases h with
  | @alone other h => exact ⟨other, h, by rw [flatten, settingsOf_of_flat h.flat]⟩
  | @manifest entries other kind hkind hdata h =>
    exact ⟨other, h, by rw [flatten, settingsOf_manifest hkind hdata]⟩

theorem ofSettings_congr {settings written : Settings}
    (h : ∀ key : String, written.find? key = settings.find? key) :
    ofSettings written = ofSettings settings := by
  rw [ofSettings, overlaid, apply_congr fun key => h key.text, ← overlaid, ← ofSettings]

theorem ofFile_eq_ofSettings {document : Value} {settings : Settings} {content : ByteArray}
    (hholds : Holds content document) (hflatten : flatten document = .ok settings)
    (path : String) :
    ofFile path (some content) = (ofSettings settings).mapError Fault.toError := by
  obtain ⟨text, htext, hparse⟩ := hholds
  rw [ofFile, settingsOfFile_eq_ok htext hparse hflatten]
  rfl

/-- The way in which settings are written plays no part. All documents that write them are
flattened to one map, and whatever files hold these documents give one configuration, or one error;
and a mapping that is no manifest is accepted just when it consists of settings. -/
theorem written_forms_agree (entries : List (Value × Value)) :
    (Flat entries → ∃ settings : Settings, flatten (.mapping entries) = .ok settings ∧
      ∀ document, Writes entries document →
        (∃ written : Settings, flatten document = .ok written ∧
          ∀ key : String, written.find? key = settings.find? key) ∧
        ∀ path content, Holds content document →
          ofFile path (some content) = (ofSettings settings).mapError Fault.toError) ∧
    (¬ IsManifest entries →
      ((∃ settings, flatten (.mapping entries) = .ok settings) ↔ Flat entries)) := by
  constructor
  · intro hflat
    have hentries : flatten (.mapping entries) = entries.mapM setting := by
      rw [flatten, settingsOf_of_flat hflat]
    obtain ⟨settings, hsettings⟩ : ∃ settings, flatten (.mapping entries) = .ok settings := by
      rw [flatten_isOk_iff, settingsOf_of_flat hflat]
      exact hflat
    refine ⟨settings, hsettings, fun document hwrites => ?_⟩
    obtain ⟨other, hrestates, hdocument⟩ := hwrites.exists_restated
    obtain ⟨written, hwritten⟩ : ∃ written : Settings, other.mapM setting = .ok written := by
      rw [mapM_isOk_iff]
      exact fun e he => setting_isOk_iff.mpr (hrestates.flat e he)
    have hsame : ∀ key : String, written.find? key = settings.find? key := by
      intro key
      rw [find?_mapM_setting hwritten, find?_mapM_setting (hentries.symm.trans hsettings),
        hrestates.bind_scalarText?]
    refine ⟨⟨written, hdocument.trans hwritten, hsame⟩, fun path content hholds => ?_⟩
    rw [ofFile_eq_ofSettings hholds (hdocument.trans hwritten), ofSettings_congr hsame]
  · intro hnot
    rw [flatten_isOk_iff, flat_settingsOf_iff hnot]

def pluginEntries : List (Value × Value) :=
  [(.string "dataUploadTimeout", .number (.integer 45)), (.string "migration", .bool true)]

/-- The same in a manifest, as strings and in another order. -/
def pluginManifest : List (Value × Value) :=
  [(.string "apiVersion", .string "v1"), (.string "data", .mapping
      [(.string "migration", .string "true"), (.string "dataUploadTimeout", .string "45")]),
    (.string "kind", .null), (.bool false, .sequence [.null])]

def manifestText : String :=
  "apiVersion: v1\ndata:\n  migration: \"true\"\n  dataUploadTimeout: \"45\"\nkind:\n"
    ++ "false:\n- null\n"

/-- The texts of a document that has the form of `pluginManifest`, and its last key. Documents
cannot be compared, but these can. -/
def manifestTexts : Option Value → Option (List String × Bool)
  | some (.mapping [(.string version, .string one), (.string data, .mapping
      [(.string migration, .string on), (.string minutes, .string many)]),
      (.string kind, .null), (.bool last, .sequence [.null])]) =>
    some ([version, one, data, migration, on, minutes, many, kind], last)
  | _ => none

theorem holds_manifestText : Holds manifestText.toUTF8 (.mapping pluginManifest) := by
  have hread : manifestTexts (parse manifestText) = some (["apiVersion", "v1", "data", "migration",
      "true", "dataUploadTimeout", "45", "kind"], false) := by decide +kernel
  refine ⟨manifestText, by decide +kernel, ?_⟩
  generalize parse manifestText = document at hread ⊢
  unfold manifestTexts at hread
  split at hread
  · cases hread
    rfl
  · cases hread

/-- The manifest writes the same settings, though as strings and in another order. -/
theorem pluginManifest_writes : Writes pluginEntries (.mapping pluginManifest) := by
  have hkind : Value.find? pluginManifest "kind" = some .null := rfl
  refine .manifest hkind rfl ⟨?_, fun key => ?_⟩
  · rintro e he
    simp only [List.mem_cons, List.not_mem_nil, or_false] at he
    rcases he with rfl | rfl
    · exact ⟨⟨_, rfl⟩, .string _⟩
    · exact ⟨⟨_, rfl⟩, .string _⟩
  · by_cases hminutes : key = "dataUploadTimeout"
    · subst hminutes
      exact .some (.integer 45)
    by_cases hmigration : key = "migration"
    · subst hmigration
      exact .some (.bool true)
    · simp [Value.find?, pluginEntries, Value.same, Ne.symm hminutes, Ne.symm hmigration]

/-- Without a kind, a mapping that holds another is no settings. -/
theorem written_forms_agree_plugin :
    Flat pluginEntries ∧ Writes pluginEntries (.mapping pluginManifest) ∧
    Holds manifestText.toUTF8 (.mapping pluginManifest) ∧
    (∀ path, ofFile path (some manifestText.toUTF8) =
      .ok (Values.mk (some 45) none none (some true)).config) ∧
    ¬ ∃ settings, flatten (.mapping [(.string "data", .mapping pluginEntries)]) = .ok settings := by
  have hflat : Flat pluginEntries := by
    intro e he
    simp only [pluginEntries, List.mem_cons, List.not_mem_nil, or_false] at he
    rcases he with rfl | rfl
    · exact ⟨⟨_, rfl⟩, .number _⟩
    · exact ⟨⟨_, rfl⟩, .bool _⟩
  refine ⟨hflat, pluginManifest_writes, holds_manifestText, fun path => ?_, ?_⟩
  · obtain ⟨settings, hsettings, hforms⟩ := (written_forms_agree pluginEntries).1 hflat
    obtain rfl : [("dataUploadTimeout", "45"), ("migration", "true")] = settings :=
      Except.ok.inj hsettings
    rw [(hforms _ pluginManifest_writes).2 path _ holds_manifestText,
      ofSettings_of_written (v := ⟨some 45, none, none, some true⟩)
        ⟨rfl, rfl, rfl, rfl, by decide, by decide⟩]
    rfl
  · have hbare : ¬ IsManifest [(.string "data", .mapping pluginEntries)] :=
      fun ⟨⟨_, hkind⟩, _⟩ => nomatch hkind
    rw [(written_forms_agree _).2 hbare]
    intro h
    cases (h _ List.mem_cons_self).2

end BackupWatch.Config
