import BackupWatch.Proofs.Server.Fields

/-!
Watched objects as they are stored. What the tracker keeps of an object can be told from the raw
object, member by member: its identity, its label, the namespace that it refers to, and its phase.
-/

namespace BackupWatch.Server

open Cluster Json Resource Watch

/-- The value at the end of a path of keys. What is missing is null. -/
def valueAt (o : Json) (path : List String) : Json :=
  path.foldl (fun value key => (value.member? key).getD .null) o

def textAt (o : Json) (path : List String) : Option String := (valueAt o path).text?

def isNull : Json → Bool
  | .null => true
  | _ => false

def isArray : Json → Bool
  | .array _ => true
  | _ => false

/-- Contents are cluster-wide, whatever their metadata say. -/
def identityOf (kind : Kind) (o : Json) : Identity where
  name := (metadataText o "name").getD ""
  ns := if kind = .snapshotContent then none else metadataText o "namespace"

def phaseOf (kind : Kind) (o : Json) : Phase :=
  match kind with
  | .snapshotContent | .snapshot =>
    if isNull (valueAt o ["status", "error"]) then
      .ofReady (readBool (valueAt o ["status", "readyToUse"]))
    else .failed
  | .dataUpload | .volumeBackup => .ofJob (textAt o ["status", "phase"])

/-- By its label, or by the stem of its name if it has no label. -/
def belongsTo (backup : String) (o : Json) : Bool :=
  match textAt o ["metadata", "labels", backupLabel] with
  | some value => value == labelValue backup
  | none => (metadataText o "name").any fun name => (backup ++ "-").toList.isPrefixOf name.toList

/-- An object of a kind that has a name and can be read. Its records are objects, not lists. -/
structure WellFormed (kind : Kind) (o : Json) : Prop where
  readable : (Object.read kind o).isSome = true
  named : (metadataText o "name").isSome = true
  records : ∀ path ∈ [[], ["spec"], ["spec", "volumeSnapshotRef"], ["status"]],
    isArray (valueAt o path) = false

instance (kind : Kind) (o : Json) : Decidable (WellFormed kind o) :=
  decidable_of_iff ((Object.read kind o).isSome = true ∧ (metadataText o "name").isSome = true ∧
      ∀ path ∈ [[], ["spec"], ["spec", "volumeSnapshotRef"], ["status"]],
        isArray (valueAt o path) = false)
    ⟨fun ⟨readable, named, records⟩ => ⟨readable, named, records⟩,
      fun h => ⟨h.readable, h.named, h.records⟩⟩

/-- What is kept of an object is what the raw object says. -/
structure Reflects (kind : Kind) (o : Json) (kept : Object) : Prop where
  same : kept.kind = kind
  identity : kept.identity = identityOf kind o
  label : kept.labels.find? backupLabel = textAt o ["metadata", "labels", backupLabel]
  reference : kind = .snapshotContent →
    kept.referenceNamespace = textAt o ["spec", "volumeSnapshotRef", "namespace"]
  phase : kept.phase = phaseOf kind o

section Members

variable {α : Type} {members : Members} {key : String}

theorem valueAt_object (path : List String) :
    valueAt (.object members) (key :: path) = valueAt ((members.find? key).getD .null) path := rfl

theorem valueAt_null (path : List String) : valueAt .null path = .null := by
  induction path with
  | nil => rfl
  | cons key path ih => exact ih

theorem metadataText_eq_textAt (o : Json) (field : String) :
    metadataText o field = textAt o ["metadata", field] := by
  change ((o.member? "metadata").bind fun m => m.member? field).bind text? =
    ((((o.member? "metadata").getD .null).member? field).getD .null).text?
  cases o.member? "metadata" with
  | none => rfl
  | some metadata =>
    change (metadata.member? field).bind text? = ((metadata.member? field).getD .null).text?
    cases metadata.member? field <;> rfl

/-- An optional field is null, or it is read. -/
theorem null_or_read_of_optional {read : Reader α} {result : Option α}
    (h : members.optional key read = some result) :
    (members.find? key).getD .null = .null ∧ result = none ∨
      ∃ a, read ((members.find? key).getD .null) = some a ∧ result = some a := by
  unfold Members.optional at h
  split at h
  · next hnone =>
    rw [hnone]
    exact Or.inl ⟨rfl, (Option.some.inj h).symm⟩
  · next hnull =>
    rw [hnull]
    exact Or.inl ⟨rfl, (Option.some.inj h).symm⟩
  · next value _ hvalue =>
    obtain ⟨a, ha, hresult⟩ := Option.map_eq_some_iff.mp h
    rw [hvalue]
    exact Or.inr ⟨a, ha, hresult.symm⟩

theorem optional_text {text : Option String} (h : members.optional key readText = some text) :
    ((members.find? key).getD .null).text? = text := by
  have hraw := text?_of_optional h
  cases hfind : members.find? key <;> rw [hfind] at hraw <;> exact hraw

theorem optional_bool {b : Option Bool} (h : members.optional key readBool = some b) :
    readBool ((members.find? key).getD .null) = b := by
  rcases null_or_read_of_optional h with ⟨hnull, rfl⟩ | ⟨value, hvalue, rfl⟩
  · rw [hnull]
    rfl
  · exact hvalue

/-- A record that is no list is an object with its fields. -/
theorem eq_object_of_readRecord {names : List String} {value : Json}
    (harray : isArray value = false) (h : readRecord names value = some members) :
    value = .object members := by
  cases value with
  | object found => exact congrArg Json.object (Option.some.inj h)
  | array items => cases harray
  | _ => cases h

/-- A map of texts is read with the texts that are stored in it. -/
theorem find?_of_readTextMap {value : Json} {map : TextMap} (h : readTextMap value = some map) :
    map.find? key = textAt value [key] := by
  cases value with
  | object found =>
    change found.mapM _ = some map at h
    change List.lookup key map = ((List.lookup key found).getD .null).text?
    induction found generalizing map with
    | nil =>
      cases h
      rfl
    | cons m rest ih =>
      rw [List.mapM_cons] at h
      obtain ⟨pair, hpair, h⟩ := Option.bind_eq_some_iff.mp h
      obtain ⟨later, hlater, h⟩ := Option.bind_eq_some_iff.mp h
      cases h
      obtain ⟨text, htext, rfl⟩ := Option.map_eq_some_iff.mp hpair
      rw [List.lookup_cons, List.lookup_cons]
      cases key == m.1 with
      | true =>
        change some text = m.2.text?
        cases hm : m.2 <;> rw [hm] at htext <;> cases htext
        rfl
      | false => exact ih hlater
  | _ => cases h

end Members

/-- Names, namespaces and labels are read as they stand in the metadata. -/
theorem texts_of_metadata {value : Json} {metadata : Metadata}
    (h : Metadata.read value = some metadata) :
    textAt value ["name"] = metadata.name ∧ textAt value ["namespace"] = metadata.ns ∧
      ∀ key, textAt value ["labels", key] = (metadata.labels.getD []).find? key := by
  unfold Metadata.read at h
  obtain ⟨members, hmembers, h⟩ := Option.bind_eq_some_iff.mp h
  obtain ⟨_, _, h⟩ := Option.bind_eq_some_iff.mp h
  obtain ⟨name, hname, h⟩ := Option.bind_eq_some_iff.mp h
  obtain ⟨_, _, h⟩ := Option.bind_eq_some_iff.mp h
  obtain ⟨ns, hns, h⟩ := Option.bind_eq_some_iff.mp h
  obtain ⟨_, _, h⟩ := Option.bind_eq_some_iff.mp h
  obtain ⟨labels, hlabels, h⟩ := Option.bind_eq_some_iff.mp h
  obtain ⟨_, _, h⟩ := Option.bind_eq_some_iff.mp h
  cases h
  cases value with
  | object found =>
    cases hmembers
    refine ⟨optional_text hname, optional_text hns, fun key => ?_⟩
    rw [textAt, valueAt_object]
    rcases null_or_read_of_optional hlabels with ⟨hnull, rfl⟩ | ⟨map, hmap, rfl⟩
    · rw [hnull]
      rfl
    · exact (find?_of_readTextMap hmap).symm
  | _ => cases hmembers

/-- The parts that an object with a status is read from. -/
theorem parts_of_reported {Spec Status : Type} {readSpec : Reader Spec}
    {readStatus : Reader Status} {o : Json} {kept : Reported Spec Status}
    (harray : isArray o = false) (h : Reported.read readSpec readStatus o = some kept) :
    Metadata.read (valueAt o ["metadata"]) = some kept.metadata ∧
      readSpec (valueAt o ["spec"]) = some kept.spec ∧
      (valueAt o ["status"] = .null ∧ kept.status = none ∨
        ∃ status, readStatus (valueAt o ["status"]) = some status ∧ kept.status = some status) := by
  cases o with
  | object members =>
    change (Stored.ofFields readSpec members).bind _ = some kept at h
    obtain ⟨stored, hstored, h⟩ := Option.bind_eq_some_iff.mp h
    obtain ⟨status, hstatus, h⟩ := Option.bind_eq_some_iff.mp h
    cases h
    obtain ⟨⟨metadata, hmetadata, hread⟩, spec, hspec, hreadSpec⟩ :=
      parts_of_read (show Stored.read readSpec (.object members) = some stored from hstored)
    simp only [valueAt_object, hmetadata, hspec, Option.getD_some]
    exact ⟨hread, hreadSpec, null_or_read_of_optional hstatus⟩
  | array items => cases harray
  | _ => cases h

/-- A snapshot has failed by its error, and else is as ready as it says. -/
theorem snapshotProgress_of_read {value : Json} {status : SnapshotStatus}
    (harray : isArray value = false) (h : SnapshotStatus.read value = some status) :
    (Object.snapshotProgress (some status)).1 =
      if isNull (valueAt value ["error"]) then .ofReady (readBool (valueAt value ["readyToUse"]))
      else .failed := by
  unfold SnapshotStatus.read at h
  obtain ⟨members, hmembers, h⟩ := Option.bind_eq_some_iff.mp h
  obtain ⟨ready, hready, h⟩ := Option.bind_eq_some_iff.mp h
  obtain ⟨error, herror, h⟩ := Option.bind_eq_some_iff.mp h
  cases h
  rw [eq_object_of_readRecord harray hmembers, valueAt_object, valueAt_object]
  rcases null_or_read_of_optional herror with ⟨hnull, rfl⟩ | ⟨e, hread, rfl⟩
  · change Phase.ofReady ready = if isNull ((members.find? "error").getD .null) then
      .ofReady (readBool ((members.find? "readyToUse").getD .null)) else .failed
    rw [hnull, optional_bool hready]
    rfl
  · have hpresent : isNull ((members.find? "error").getD .null) = false := by
      cases hvalue : (members.find? "error").getD .null with
      | null =>
        rw [hvalue] at hread
        cases hread
      | _ => rfl
    change Phase.failed = if isNull ((members.find? "error").getD .null) then _ else _
    rw [hpresent]
    rfl

/-- The phase that is read of a job is the text of its status. -/
theorem jobPhase_of_read {value : Json} {status : JobStatus}
    (harray : isArray value = false) (h : JobStatus.read value = some status) :
    status.phase = textAt value ["phase"] := by
  unfold JobStatus.read at h
  obtain ⟨members, hmembers, h⟩ := Option.bind_eq_some_iff.mp h
  obtain ⟨phase, hphase, h⟩ := Option.bind_eq_some_iff.mp h
  obtain ⟨_, _, h⟩ := Option.bind_eq_some_iff.mp h
  cases h
  rw [eq_object_of_readRecord harray hmembers]
  exact (optional_text hphase).symm

/-- The reference that is read of a snapshot content holds the texts of the stored one. -/
theorem reference_of_read {value : Json} {spec : SnapshotContentSpec}
    (harray : isArray value = false)
    (harray' : isArray (valueAt value ["volumeSnapshotRef"]) = false)
    (h : SnapshotContentSpec.read value = some spec) :
    spec.snapshot.ns = textAt value ["volumeSnapshotRef", "namespace"] := by
  unfold SnapshotContentSpec.read at h
  obtain ⟨members, hmembers, h⟩ := Option.bind_eq_some_iff.mp h
  obtain ⟨_, _, h⟩ := Option.bind_eq_some_iff.mp h
  obtain ⟨snapshot, hsnapshot, h⟩ := Option.bind_eq_some_iff.mp h
  cases h
  obtain rfl := eq_object_of_readRecord harray hmembers
  rw [textAt, valueAt_object]
  unfold Members.defaulted at hsnapshot
  cases hfind : members.find? "volumeSnapshotRef" with
  | none =>
    rw [hfind] at hsnapshot
    cases hsnapshot
    rfl
  | some reference =>
    rw [valueAt_object, hfind] at harray'
    rw [hfind] at hsnapshot
    change SnapshotReference.read reference = some snapshot at hsnapshot
    unfold SnapshotReference.read at hsnapshot
    obtain ⟨fields, hfields, hsnapshot⟩ := Option.bind_eq_some_iff.mp hsnapshot
    obtain ⟨_, _, hsnapshot⟩ := Option.bind_eq_some_iff.mp hsnapshot
    obtain ⟨ns, hns, hsnapshot⟩ := Option.bind_eq_some_iff.mp hsnapshot
    cases hsnapshot
    obtain rfl : reference = .object fields := eq_object_of_readRecord harray' hfields
    exact (optional_text hns).symm

section Kept

variable {kind : Kind} {o : Json} {kept : Object}

/-- What every kind keeps of an object, from its metadata. -/
theorem reflects_of_make {metadata : Metadata} {ns reference : Option String}
    {progress : Phase × Option String} (hnamed : (metadataText o "name").isSome = true)
    (hread : Metadata.read (valueAt o ["metadata"]) = some metadata)
    (hns : ns = if kind = .snapshotContent then none else metadata.ns)
    (hreference : kind = .snapshotContent →
      reference = textAt o ["spec", "volumeSnapshotRef", "namespace"])
    (hphase : progress.1 = phaseOf kind o) :
    Reflects kind o (.make kind metadata ns reference progress) := by
  obtain ⟨hname, hplace, hlabel⟩ := texts_of_metadata hread
  have hname' : metadataText o "name" = metadata.name := (metadataText_eq_textAt o _).trans hname
  have hplace' : metadataText o "namespace" = metadata.ns :=
    (metadataText_eq_textAt o _).trans hplace
  refine ⟨rfl, ?_, (hlabel backupLabel).symm, hreference, hphase⟩
  have hshown : metadata.shownName = (metadataText o "name").getD "" := by
    obtain ⟨name, hsome⟩ := Option.isSome_iff_exists.mp hnamed
    rw [Metadata.shownName, ← hname', hsome]
    rfl
  rw [identityOf, ← hshown, hplace', ← hns]
  rfl

theorem phaseOf_of_null (hstatus : valueAt o ["status"] = .null) : phaseOf kind o = .new := by
  have hnull : ∀ key, valueAt o ["status", key] = .null := by
    intro key
    change valueAt (valueAt o ["status"]) [key] = .null
    rw [hstatus, valueAt_null]
  cases kind <;> simp [phaseOf, textAt, hnull, isNull, readBool, text?, Phase.ofReady, Phase.ofJob]

theorem snapshotPhase_of_status {status : Option SnapshotStatus}
    (hkind : kind = .snapshotContent ∨ kind = .snapshot)
    (harray : isArray (valueAt o ["status"]) = false)
    (h : valueAt o ["status"] = .null ∧ status = none ∨
      ∃ found, SnapshotStatus.read (valueAt o ["status"]) = some found ∧ status = some found) :
    (Object.snapshotProgress status).1 = phaseOf kind o := by
  rcases h with ⟨hnull, rfl⟩ | ⟨found, hfound, rfl⟩
  · rw [phaseOf_of_null hnull]
    rfl
  · rw [snapshotProgress_of_read harray hfound]
    rcases hkind with rfl | rfl <;> rfl

theorem jobPhase_of_status {status : Option JobStatus}
    (hkind : kind = .dataUpload ∨ kind = .volumeBackup)
    (harray : isArray (valueAt o ["status"]) = false)
    (h : valueAt o ["status"] = .null ∧ status = none ∨
      ∃ found, JobStatus.read (valueAt o ["status"]) = some found ∧ status = some found) :
    (Object.jobProgress status).1 = phaseOf kind o := by
  rcases h with ⟨hnull, rfl⟩ | ⟨found, hfound, rfl⟩
  · rw [phaseOf_of_null hnull]
    rfl
  · change Phase.ofJob found.phase = _
    rw [jobPhase_of_read harray hfound]
    rcases hkind with rfl | rfl <;> rfl

/-- What is kept of a well-formed object is what is stored. -/
theorem WellFormed.reflects (h : WellFormed kind o) (hread : Object.read kind o = some kept) :
    Reflects kind o kept := by
  have hwhole : isArray o = false := h.records [] (by simp)
  have hspec := h.records ["spec"] (by simp)
  have hreference := h.records ["spec", "volumeSnapshotRef"] (by simp)
  have hstatus := h.records ["status"] (by simp)
  cases kind with
  | snapshotContent =>
    obtain ⟨c, hc, rfl⟩ := Option.map_eq_some_iff.mp hread
    obtain ⟨hmetadata, hspecRead, hreported⟩ := parts_of_reported hwhole hc
    exact reflects_of_make h.named hmetadata rfl
      (fun _ => reference_of_read hspec hreference hspecRead)
      (snapshotPhase_of_status (Or.inl rfl) hstatus hreported)
  | snapshot =>
    obtain ⟨c, hc, rfl⟩ := Option.map_eq_some_iff.mp hread
    obtain ⟨hmetadata, _, hreported⟩ := parts_of_reported hwhole hc
    exact reflects_of_make h.named hmetadata rfl (fun hkind => by cases hkind)
      (snapshotPhase_of_status (Or.inr rfl) hstatus hreported)
  | dataUpload =>
    obtain ⟨c, hc, rfl⟩ := Option.map_eq_some_iff.mp hread
    obtain ⟨hmetadata, _, hreported⟩ := parts_of_reported hwhole hc
    exact reflects_of_make h.named hmetadata rfl (fun hkind => by cases hkind)
      (jobPhase_of_status (Or.inl rfl) hstatus hreported)
  | volumeBackup =>
    obtain ⟨c, hc, rfl⟩ := Option.map_eq_some_iff.mp hread
    obtain ⟨hmetadata, _, hreported⟩ := parts_of_reported hwhole hc
    exact reflects_of_make h.named hmetadata rfl (fun hkind => by cases hkind)
      (jobPhase_of_status (Or.inr rfl) hstatus hreported)

/-- An object belongs to a backup as its stored labels and names say. -/
theorem Reflects.belongsTo (h : Reflects kind o kept)
    (hnamed : (metadataText o "name").isSome = true) (backup : String) :
    kept.belongsTo backup = Server.belongsTo backup o := by
  obtain ⟨name, hname⟩ := Option.isSome_iff_exists.mp hnamed
  unfold Object.belongsTo Server.belongsTo
  rw [h.label, h.identity]
  cases textAt o ["metadata", "labels", backupLabel] with
  | some value => rfl
  | none => simp [identityOf, hname]

end Kept
end BackupWatch.Server
