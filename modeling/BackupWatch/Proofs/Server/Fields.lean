import BackupWatch.Proofs.Server.Store

/-!
What a client reads off a stored object. Whatever can be read of its pause field is what the store
has there, and the version that comes with it is the version of the object.
-/

namespace BackupWatch.Server

open Cluster Json Resource

/-- An optional text, as a raw member: none for one that is absent or null. -/
theorem text?_of_optional {members : Members} {key : String} {text : Option String}
    (h : members.optional key readText = some text) :
    (members.find? key).bind Json.text? = text := by
  unfold Members.optional at h
  split at h
  · next hnone =>
    rw [hnone]
    exact Option.some.inj h
  · next hnull =>
    rw [hnull]
    exact Option.some.inj h
  · next value _ hvalue =>
    rw [hvalue]
    cases value with
    | string s => simpa [readText, Json.text?] using h
    | _ => simp [readText] at h

/-- A defaulted text, as a raw member. -/
theorem text?_of_defaulted {members : Members} {key text : String}
    (h : members.defaulted key "" readText = some text) :
    ((members.find? key).bind Json.text?).getD "" = text := by
  unfold Members.defaulted at h
  cases hfind : members.find? key with
  | none =>
    rw [hfind] at h
    exact Option.some.inj h
  | some value =>
    rw [hfind] at h
    cases value with
    | string s => simpa [readText, Json.text?] using h
    | _ => simp [readText] at h

/-- An optional text is there just if the raw member is. -/
theorem raw_eq_string_iff_of_optional {members : Members} {key : String} {text : Option String}
    (h : members.optional key readText = some text) (s : String) :
    (members.find? key).getD .null = .string s ↔ text = some s := by
  unfold Members.optional at h
  split at h
  · next hnone =>
    rw [hnone, ← Option.some.inj h]
    simp
  · next hnull =>
    rw [hnull, ← Option.some.inj h]
    simp
  · next value _ hvalue =>
    rw [hvalue]
    cases value with
    | string t =>
      simp only [readText, Option.map_some, Option.some.injEq] at h
      rw [← h]
      simp
    | _ => simp [readText] at h

/-- The name and the version that are read are the texts of the stored metadata. -/
theorem texts_of_read {value : Json} {metadata : Metadata}
    (h : Metadata.read value = some metadata) :
    (value.member? "name").bind Json.text? = metadata.name ∧
      (value.member? "resourceVersion").bind Json.text? = metadata.resourceVersion := by
  unfold Metadata.read at h
  obtain ⟨members, hmembers, h⟩ := Option.bind_eq_some_iff.mp h
  obtain ⟨_, _, h⟩ := Option.bind_eq_some_iff.mp h
  obtain ⟨name, hname, h⟩ := Option.bind_eq_some_iff.mp h
  obtain ⟨_, _, h⟩ := Option.bind_eq_some_iff.mp h
  obtain ⟨_, _, h⟩ := Option.bind_eq_some_iff.mp h
  obtain ⟨version, hversion, h⟩ := Option.bind_eq_some_iff.mp h
  obtain ⟨_, _, h⟩ := Option.bind_eq_some_iff.mp h
  obtain ⟨_, _, h⟩ := Option.bind_eq_some_iff.mp h
  cases h
  cases value with
  | object found =>
    cases hmembers
    exact ⟨text?_of_optional hname, text?_of_optional hversion⟩
  | _ => cases hmembers

/-- A stored object is read from its metadata and its specification. -/
theorem parts_of_read {Spec : Type} {readSpec : Reader Spec} {members : Members}
    {stored : Stored Spec} (h : Stored.read readSpec (.object members) = some stored) :
    (∃ raw, members.find? "metadata" = some raw ∧ Metadata.read raw = some stored.metadata) ∧
      ∃ raw, members.find? "spec" = some raw ∧ readSpec raw = some stored.spec := by
  change Stored.ofFields readSpec members = some stored at h
  unfold Stored.ofFields at h
  obtain ⟨metadata, hmetadata, h⟩ := Option.bind_eq_some_iff.mp h
  obtain ⟨spec, hspec, h⟩ := Option.bind_eq_some_iff.mp h
  cases h
  exact ⟨Option.bind_eq_some_iff.mp hmetadata, Option.bind_eq_some_iff.mp hspec⟩

structure Pausable (members : Members) (field : PauseField) : Prop where
  version : ((members.find? "metadata").bind (Json.member? · "resourceVersion")).bind Json.text? =
    field.version
  value : ∀ spec, members.find? "spec" = some (.object spec) →
    Members.optional spec "pausedUntil" readText = some field.value

theorem pausable_of_stored {Spec : Type} {readSpec : Reader Spec} {members : Members}
    {stored : Stored Spec} {value : Option String}
    (h : Stored.read readSpec (.object members) = some stored)
    (hvalue : ∀ spec, readSpec (.object spec) = some stored.spec →
      Members.optional spec "pausedUntil" readText = some value) :
    Pausable members ⟨value, stored.metadata.resourceVersion⟩ := by
  obtain ⟨⟨raw, hraw, hread⟩, other, hother, hspec⟩ := parts_of_read h
  refine ⟨?_, ?_⟩
  · rw [hraw, Option.bind_some]
    exact (texts_of_read hread).2
  · intro found hfound
    cases hfound.symm.trans hother
    exact hvalue found hspec

/-- A pause field is read with the version and the value that the object holds. -/
theorem pausable_of_pauseField {kind : ManagedKind} {members : Members} {field : PauseField}
    (h : Api.pauseField kind (.object members) = .ok field) : Pausable members field := by
  cases kind with
  | hostedCluster =>
    unfold Api.pauseField Api.decode at h
    cases hread : HostedCluster.read (.object members) with
    | none =>
      rw [hread] at h
      cases h
    | some cluster =>
      rw [hread] at h
      cases h
      refine pausable_of_stored hread fun spec hspec => ?_
      change Option.bind (Members.optional spec "pausedUntil" readText) _ = some _ at hspec
      obtain ⟨paused, hpaused, hspec⟩ := Option.bind_eq_some_iff.mp hspec
      obtain ⟨_, _, hspec⟩ := Option.bind_eq_some_iff.mp hspec
      obtain ⟨_, _, hspec⟩ := Option.bind_eq_some_iff.mp hspec
      rw [← Option.some.inj hspec]
      exact hpaused
  | nodePool =>
    unfold Api.pauseField Api.decode at h
    cases hread : NodePool.read (.object members) with
    | none =>
      rw [hread] at h
      cases h
    | some pool =>
      rw [hread] at h
      cases h
      refine pausable_of_stored hread fun spec hspec => ?_
      change Option.bind (Members.defaulted spec "clusterName" "" readText) _ = some _ at hspec
      obtain ⟨_, _, hspec⟩ := Option.bind_eq_some_iff.mp hspec
      obtain ⟨paused, hpaused, hspec⟩ := Option.bind_eq_some_iff.mp hspec
      rw [← Option.some.inj hspec]
      exact hpaused

/-- An object without a readable pause field is a malformed answer. -/
theorem eq_malformedAnswer_of_pauseField {kind : ManagedKind} {o : Json} {e : Error}
    (h : Api.pauseField kind o = .error e) : e = .malformedAnswer := by
  cases kind with
  | hostedCluster =>
    unfold Api.pauseField Api.decode at h
    cases hread : HostedCluster.read o <;> rw [hread] at h <;> cases h
    rfl
  | nodePool =>
    unfold Api.pauseField Api.decode at h
    cases hread : NodePool.read o <;> rw [hread] at h <;> cases h
    rfl

/-- The version that comes with a pause field is the version of the object. -/
theorem version_of_pauseField {kind : ManagedKind} {members : Members} {field : PauseField}
    (h : Api.pauseField kind (.object members) = .ok field) :
    field.version = versionOf (.object members) :=
  (pausable_of_pauseField h).version.symm

/-- A pause field reads as a value just if the object holds it. -/
theorem pausedUntil_eq_iff {kind : ManagedKind} {o : Json} {field : PauseField} {spec : Members}
    (h : Api.pauseField kind o = .ok field) (hspec : o.member? "spec" = some (.object spec))
    (value : String) : pausedUntil o = .string value ↔ field.value = some value := by
  cases o with
  | object members =>
    have hoptional := (pausable_of_pauseField h).value spec hspec
    rw [pausedUntil, hspec, Option.bind_some]
    exact raw_eq_string_iff_of_optional hoptional value
  | _ => cases hspec

def clusterNameOf (o : Json) : Option String :=
  ((o.member? "spec").bind (Json.member? · "clusterName")).bind Json.text?

/-- A node pool is read with the name and the cluster that are stored. -/
theorem pool_of_read {o : Json} {pool : NodePool} {spec : Members}
    (h : NodePool.read o = some pool) (hspec : o.member? "spec" = some (.object spec)) :
    metadataText o "name" = pool.metadata.name ∧
      (clusterNameOf o).getD "" = pool.spec.clusterName := by
  cases o with
  | object members =>
    obtain ⟨⟨raw, hraw, hread⟩, other, hother, hpool⟩ := parts_of_read h
    cases hother.symm.trans hspec
    refine ⟨?_, ?_⟩
    · change ((Members.find? members "metadata").bind _).bind _ = _
      rw [hraw, Option.bind_some]
      exact (texts_of_read hread).1
    · change Option.bind (Members.defaulted spec "clusterName" "" readText) _ = some _ at hpool
      obtain ⟨name, hname, hpool⟩ := Option.bind_eq_some_iff.mp hpool
      obtain ⟨_, _, hpool⟩ := Option.bind_eq_some_iff.mp hpool
      rw [clusterNameOf, hspec, Option.bind_some, ← Option.some.inj hpool]
      exact text?_of_defaulted hname
  | _ => cases hspec

end BackupWatch.Server
