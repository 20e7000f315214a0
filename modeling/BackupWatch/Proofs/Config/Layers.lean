import BackupWatch.Command.Job
import BackupWatch.Proofs.Config.Accepted

/-!
Layers of settings. Whatever configuration settings are laid on, they are read the same, so that
two layers laid on one after the other are one layer, in which the later outweighs the earlier.
The options of a job are such a layer over its file.
-/

namespace BackupWatch

namespace Config

variable {α : Type} {earlier later both : Settings}

/-- In two layers a key is read from the later one and, if it is not there, from the earlier. -/
theorem value?_layers {key : Key} {read : String → Except Numeral.Fault α} {value : Option α}
    (hboth : both.find? key.text = (later.find? key.text).or (earlier.find? key.text))
    (hearlier : value? earlier key read = .ok value) :
    value? both key read = (value? later key read).map (·.or value) := by
  cases hlater : later.find? key.text with
  | none =>
    rw [hlater, Option.none_or] at hboth
    have hnone : value? later key read = .ok none := by rw [value?, hlater]
    have hsame : value? both key read = value? earlier key read := by rw [value?, value?, hboth]
    rw [hsame, hearlier, hnone]
    rfl
  | some raw =>
    rw [hlater, Option.some_or] at hboth
    rw [value?, value?, hboth, hlater]
    dsimp only
    cases read (Text.trim raw) <;> rfl

namespace Values

/-- Later values and, where they say nothing, earlier ones. -/
def above (later earlier : Values) : Values where
  minutes := later.minutes.or earlier.minutes
  pace := later.pace.or earlier.pace
  propagation := later.propagation.or earlier.propagation
  migration := later.migration.or earlier.migration

/-- To lay on values above others is to lay on the others first. -/
theorem onto_above (later earlier : Values) (c : Config) :
    (later.above earlier).onto c = later.onto (earlier.onto c) := by
  obtain ⟨_ | _, _ | _, _ | _, _ | _⟩ := later <;> rfl

/-- The guard of two values is that of the later, as the earlier one has passed it. -/
theorem guarded_or {good : Nat → Prop} [DecidablePred good] (fault : Fault) (value : Option Nat)
    {kept : Option Nat} (hkept : ∀ n ∈ kept, good n) :
    guarded good fault (value.or kept) = (guarded good fault value).map (·.or kept) := by
  cases value with
  | none =>
    rw [guarded_none]
    exact if_pos hkept
  | some n =>
    rw [Option.some_or, guarded_some]
    split <;> rfl

/-- A later value is refused or not whatever the earlier one, which has been accepted. -/
theorem guarded_layers {key : Key} {good : Nat → Prop} [DecidablePred good] (fault : Fault)
    {value : Option Nat}
    (hboth : both.find? key.text = (later.find? key.text).or (earlier.find? key.text))
    (hearlier : value? earlier key Numeral.unsigned = .ok value) (hgood : ∀ n ∈ value, good n) :
    (value? both key Numeral.unsigned >>= guarded good fault) =
      (value? later key Numeral.unsigned >>= guarded good fault).map (·.or value) := by
  rw [value?_layers hboth hearlier]
  rcases value? later key Numeral.unsigned with _ | found
  · rfl
  · exact guarded_or fault found hgood

/-- Two layers in one are read as the values of the later above those of the earlier. -/
theorem read_layers {v : Values}
    (hboth : ∀ key : Key,
      both.find? key.text = (later.find? key.text).or (earlier.find? key.text))
    (hearlier : v.Written earlier) : read both = (read later).map (·.above v) := by
  have hminutes : (value? both .uploadTimeout Numeral.unsigned >>= timed) =
      (value? later .uploadTimeout Numeral.unsigned >>= timed).map (·.or v.minutes) :=
    guarded_layers _ (hboth _) hearlier.minutes hearlier.timed
  have hpace : (value? both .uploadPace Numeral.unsigned >>= paced) =
      (value? later .uploadPace Numeral.unsigned >>= paced).map (·.or v.pace) :=
    guarded_layers _ (hboth _) hearlier.pace hearlier.paced
  rw [read, read, hminutes, hpace, value?_layers (hboth _) hearlier.propagation,
    value?_layers (hboth _) hearlier.migration]
  generalize value? later .uploadTimeout Numeral.unsigned >>= timed = minutes,
    value? later .uploadPace Numeral.unsigned >>= paced = pace,
    value? later .propagationTimeout Numeral.unsigned = propagation,
    value? later .migration Numeral.truthValue = migration
  rcases minutes with fault | minutes
  · rfl
  rcases pace with fault | pace
  · rfl
  rcases propagation with fault | propagation
  · rfl
  cases migration <;> rfl

end Values

/-- Where the earlier layer is accepted, both layers in one are accepted or refused as the later
is after it. -/
theorem overlaid_layers {c middle : Config}
    (hboth : ∀ key : Key,
      both.find? key.text = (later.find? key.text).or (earlier.find? key.text))
    (hearlier : c.overlaid earlier = .ok middle) :
    c.overlaid both = middle.overlaid later := by
  rw [overlaid_eq] at hearlier
  rcases hread : Values.read earlier with fault | v
  · rw [hread] at hearlier
    cases hearlier
  · rw [hread] at hearlier
    cases hearlier
    rw [overlaid_eq, overlaid_eq, Values.read_layers hboth (Values.read_eq_ok_iff.mp hread)]
    rcases Values.read later with fault | w
    · rfl
    · exact congrArg Except.ok (Values.onto_above w v c)

end Config

/-! ## The options of a job -/

namespace Command.JobArguments

open Config

variable {job : JobArguments}

/-- What the options say of a key: a number in decimal, of the migration that it is on, if it
is. -/
def given (job : JobArguments) : Key → Option String
  | .uploadTimeout => job.uploadTimeout.map toString
  | .uploadPace => job.uploadPace.map toString
  | .propagationTimeout => job.propagationTimeout.map toString
  | .migration => if job.migration then some "true" else none

theorem find?_settings (job : JobArguments) (key : Key) :
    job.settings.find? key.text = job.given key := by
  obtain ⟨_, _, _, _, _ | _, _ | _, _ | _, _ | _, _⟩ := job <;> cases key <;> rfl

/-- The settings are those of the job's file. A job without a file has none. -/
def Holds (job : JobArguments) (file : String → Option ByteArray) (settings : Settings) : Prop :=
  match job.config with
  | none => settings = []
  | some path => ∃ content text document, file path = some content ∧
      String.fromUTF8? content = some text ∧ Yaml.parse text = some document ∧
      flatten document = .ok settings

/-- The options of a job are laid on the configuration of its file. -/
theorem configuration_eq_overlaid {file : String → Option ByteArray} {settings : Settings}
    {base : Config} (hfile : job.Holds file settings) (hbase : ofSettings settings = .ok base) :
    job.configuration file =
      reported [] ((base.overlaid job.settings).mapError Config.Fault.toFailure) := by
  unfold Holds at hfile
  unfold configuration
  cases hpath : job.config with
  | none =>
    rw [hpath] at hfile
    subst hfile
    cases hbase
    rfl
  | some path =>
    rw [hpath] at hfile
    obtain ⟨content, text, document, hcontent, htext, hdocument, hsettings⟩ := hfile
    have hread : (settingsOfFile path (file path)).mapError Failure.error >>=
        (fun settings => (ofSettings settings).mapError Fault.toFailure) = .ok base := by
      rw [hcontent, settingsOfFile_eq_ok htext hdocument hsettings]
      change (ofSettings settings).mapError Fault.toFailure = .ok base
      rw [hbase]
      rfl
    simp only [hread]
    rfl

/-- The options overwrite the keys of the file and nothing else, and laying on one map after
another is laying on the first overwritten with the second. -/
theorem layers_overwrite :
    (∀ (job : JobArguments) (file : String → Option ByteArray) (settings both : Settings)
      (base : Config), job.Holds file settings → ofSettings settings = .ok base →
      (∀ key, both.find? key.text = (job.given key).or (settings.find? key.text)) →
      job.configuration file =
        reported [] ((ofSettings both).mapError Config.Fault.toFailure)) ∧
    ∀ (c middle final : Config) (earlier later both : Settings),
      c.apply earlier = (none, middle) → middle.apply later = (none, final) →
      (∀ key : Key, both.find? key.text = (later.find? key.text).or (earlier.find? key.text)) →
      c.apply both = (none, final) := by
  constructor
  · intro job file settings both base hfile hbase hboth
    have hlayers : ∀ key : Key, both.find? key.text =
        (job.settings.find? key.text).or (settings.find? key.text) := by
      simpa only [find?_settings] using hboth
    rw [configuration_eq_overlaid hfile hbase, ofSettings, overlaid_layers hlayers hbase]
  · intro c middle final earlier later both hearlier hlater hboth
    rw [← overlaid_eq_ok_iff] at hearlier hlater ⊢
    rw [overlaid_layers hboth hearlier, hlater]

/-- A job whose file sets the time-out of the uploads and the migration, with a longer time-out
and a pace on the command line. -/
def layeredJob : JobArguments where
  backupName := "nightly"
  backupNamespace := "openshift-adp"
  namespaces := []
  config := some "plugin.yaml"
  uploadTimeout := some 90
  uploadPace := some 5
  propagationTimeout := none
  migration := false
  fileSystem := false

def pluginText : String := "dataUploadTimeout: 45\nmigration: true\n"

def pluginSettings : Settings := [("dataUploadTimeout", "45"), ("migration", "true")]

def layeredSettings : Settings :=
  [("dataUploadTimeout", "90"), ("dataUploadCheckPace", "5"), ("migration", "true")]

theorem layeredJob_overwrites :
    layeredJob.Holds (fun _ => some pluginText.toUTF8) pluginSettings ∧
    (∀ key : Key, layeredSettings.find? key.text =
      (layeredJob.given key).or (pluginSettings.find? key.text)) ∧
    layeredJob.configuration (fun _ => some pluginText.toUTF8) =
      .ok (Values.mk (some 90) (some 5) none (some true)).config ∧
    standard.apply layeredSettings =
      (none, (Values.mk (some 90) (some 5) none (some true)).config) := by
  have hdocument : (Yaml.parse pluginText).map (fun document => (flatten document).toOption) =
      some (some pluginSettings) := by decide +kernel
  have hholds : layeredJob.Holds (fun _ => some pluginText.toUTF8) pluginSettings := by
    obtain ⟨document, hparse, hflat⟩ := Option.map_eq_some_iff.mp hdocument
    exact ⟨_, pluginText, document, rfl, by decide +kernel, hparse, ok_of_toOption hflat⟩
  have hboth : ∀ key : Key, layeredSettings.find? key.text =
      (layeredJob.given key).or (pluginSettings.find? key.text) := by
    intro key
    cases key <;> decide +kernel
  have hbase : ofSettings pluginSettings =
      .ok (Values.mk (some 45) none none (some true)).config :=
    ofSettings_of_written ⟨rfl, rfl, rfl, rfl, by decide, by decide⟩
  have hlayered : ofSettings layeredSettings =
      .ok (Values.mk (some 90) (some 5) none (some true)).config :=
    ofSettings_of_written ⟨rfl, rfl, rfl, rfl, by decide, by decide⟩
  refine ⟨hholds, hboth, ?_, ?_⟩
  · rw [layers_overwrite.1 layeredJob _ _ _ _ hholds hbase hboth, hlayered]
    rfl
  · refine layers_overwrite.2 standard _ _ pluginSettings layeredJob.settings layeredSettings
      (overlaid_eq_ok_iff.mp hbase) ?_ fun key => (find?_settings layeredJob key).symm ▸ hboth key
    rfl

end Command.JobArguments
end BackupWatch
