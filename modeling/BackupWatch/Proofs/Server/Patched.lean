import BackupWatch.Proofs.Server.Fields

/-!
A stored object can still be read once its pause field is set. Setting a member changes what is
read of that member and of no other, so an object that could be read before the patch is read after
it with the new value, and an accepted patch always has an answer.
-/

namespace BackupWatch.Server

open Cluster Json Resource

section Members

variable (members : Members) {key other : String}

/-- Inserting one member does not change what is read of another. -/
theorem optional_insert_of_ne {α : Type} (read : Reader α) (item : Json) (h : other ≠ key) :
    (members.insert key item).optional other read = members.optional other read := by
  unfold Members.optional
  rw [Members.find?_insert_of_ne members item h]

theorem defaulted_insert_of_ne {α : Type} (read : Reader α) (default : α) (item : Json)
    (h : other ≠ key) :
    (members.insert key item).defaulted other default read =
      members.defaulted other default read := by
  unfold Members.defaulted
  rw [Members.find?_insert_of_ne members item h]

theorem optional_insert_text (text : String) :
    (members.insert key (.string text)).optional key readText = some (some text) := by
  unfold Members.optional
  rw [Members.find?_insert_self]
  rfl

end Members

/-- Metadata with another version are read with that version. -/
theorem read_insert_version {members : Members} {metadata : Metadata}
    (h : Metadata.read (.object members) = some metadata) (version : String) :
    Metadata.read (.object (members.insert "resourceVersion" (.string version))) =
      some { metadata with resourceVersion := some version } := by
  have hothers : Metadata.checkOthers (members.insert "resourceVersion" (.string version)) =
      Metadata.checkOthers members := by
    simp (disch := decide) only [Metadata.checkOthers, optional_insert_of_ne]
  unfold Metadata.read at h ⊢
  simp only [readMembers, Option.bind_eq_bind, Option.bind_some] at h ⊢
  simp (disch := decide) only [hothers, optional_insert_of_ne, optional_insert_text,
    Option.bind_some]
  simp only [Option.bind_eq_some_iff] at h ⊢
  obtain ⟨_, hchecked, name, hname, stem, hstem, ns, hns, _, _, labels, hlabels, annotations,
    hannotations, hmetadata⟩ := h
  cases hmetadata
  exact ⟨_, hchecked, name, hname, stem, hstem, ns, hns, labels, hlabels, annotations,
    hannotations, rfl⟩

/-- Of a patched cluster the specification reads as before, but for the pause field. -/
theorem read_insert_pause_cluster {members : Members} {spec : HostedClusterSpec}
    (h : HostedClusterSpec.read (.object members) = some spec) (value : String) :
    HostedClusterSpec.read (.object (members.insert "pausedUntil" (.string value))) =
      some { spec with pausedUntil := some value } := by
  unfold HostedClusterSpec.read at h ⊢
  simp only [readRecord, Option.bind_eq_bind, Option.bind_some] at h ⊢
  simp (disch := decide) only [optional_insert_of_ne, optional_insert_text, Option.bind_some]
  simp only [Option.bind_eq_some_iff] at h ⊢
  obtain ⟨_, _, platform, hplatform, availability, havailability, hspec⟩ := h
  cases hspec
  exact ⟨platform, hplatform, availability, havailability, rfl⟩

/-- Of a patched pool the specification reads as before, but for the pause field. -/
theorem read_insert_pause_pool {members : Members} {spec : NodePoolSpec}
    (h : NodePoolSpec.read (.object members) = some spec) (value : String) :
    NodePoolSpec.read (.object (members.insert "pausedUntil" (.string value))) =
      some { spec with pausedUntil := some value } := by
  unfold NodePoolSpec.read at h ⊢
  simp only [readRecord, Option.bind_eq_bind, Option.bind_some] at h ⊢
  simp (disch := decide) only [defaulted_insert_of_ne, optional_insert_text, Option.bind_some]
  simp only [Option.bind_eq_some_iff] at h ⊢
  obtain ⟨name, hname, _, _, hspec⟩ := h
  cases hspec
  exact ⟨name, hname, rfl⟩

/-- The metadata of a patched object have at most another version. -/
theorem metadata_setPause_eq_or (o : Json) (value : String) :
    (setPause (some value) o).member? "metadata" = o.member? "metadata" ∨
      ∃ metadata version, o.member? "metadata" = some metadata ∧
        (setPause (some value) o).member? "metadata" =
          some (metadata.setMember "resourceVersion" (.string version)) := by
  have hkept : (withPause o value).member? "metadata" = o.member? "metadata" :=
    Json.member?_setMember_of_ne _ _ (by decide)
  rw [setPause_some, ← hkept]
  rcases bumpVersion_eq_or (withPause o value) with hsame | ⟨metadata, version, hfound, hnext⟩
  · exact Or.inl (by rw [hsame])
  · exact Or.inr ⟨metadata, version, hfound, by rw [hnext, Json.member?_setMember_self]⟩

theorem exists_members_setPause (members : Members) (value : String) :
    ∃ patched : Members, setPause (some value) (.object members) = .object patched := by
  rw [setPause_some]
  rcases bumpVersion_eq_or (withPause (.object members) value) with hsame | ⟨_, _, _, hnext⟩
  · exact ⟨_, hsame⟩
  · exact ⟨_, hnext⟩

/-- A patched object is read with its specification changed, and with the rest of it as before but
for the version. -/
theorem read_setPause {Spec : Type} {readSpec : Reader Spec} {members fields : Members}
    {stored : Stored Spec} (h : Stored.read readSpec (.object members) = some stored)
    (hspec : members.find? "spec" = some (.object fields)) {value : String} {change : Spec → Spec}
    (hchange : ∀ spec, readSpec (.object fields) = some spec →
      readSpec (.object (fields.insert "pausedUntil" (.string value))) = some (change spec)) :
    ∃ version, Stored.read readSpec (setPause (some value) (.object members)) =
      some ⟨{ stored.metadata with resourceVersion := version }, change stored.spec⟩ := by
  obtain ⟨⟨raw, hraw, hread⟩, _, hother, hstored⟩ := parts_of_read h
  cases hother.symm.trans hspec
  obtain ⟨patched, hpatched⟩ := exists_members_setPause members value
  have hnewSpec : patched.find? "spec" =
      some (.object (fields.insert "pausedUntil" (.string value))) := by
    have hset := spec_setPause (.object members) value
    rw [hpatched] at hset
    refine hset.trans ?_
    rw [show (Json.object members).member? "spec" = _ from hspec]
    rfl
  have hnewMetadata : ∃ version, (patched.find? "metadata").bind Metadata.read =
      some { stored.metadata with resourceVersion := version } := by
    have hcases := metadata_setPause_eq_or (.object members) value
    rw [hpatched] at hcases
    rcases hcases with hsame | ⟨metadata, version, hfound, hset⟩
    · refine ⟨stored.metadata.resourceVersion, ?_⟩
      rw [show patched.find? "metadata" = _ from hsame.trans hraw]
      exact hread
    · cases hraw.symm.trans hfound
      rw [show patched.find? "metadata" = _ from hset]
      cases raw with
      | object found => exact ⟨some version, read_insert_version hread version⟩
      | _ => cases hread
  obtain ⟨version, hversion⟩ := hnewMetadata
  refine ⟨version, ?_⟩
  rw [hpatched]
  change Stored.ofFields readSpec patched = _
  unfold Stored.ofFields Members.required
  rw [hversion, hnewSpec, Option.bind_some, hchange _ hstored]
  rfl

/-- An object whose pause field could be read shows the new value once it is set. -/
theorem pauseField_setPause {kind : ManagedKind} {o : Json} {field : PauseField}
    {spec : Members} (h : Api.pauseField kind o = .ok field)
    (hspec : o.member? "spec" = some (.object spec)) (value : String) :
    ∃ version, Api.pauseField kind (setPause (some value) o) = .ok ⟨some value, version⟩ := by
  cases o with
  | object members =>
    cases kind with
    | hostedCluster =>
      unfold Api.pauseField Api.decode at h ⊢
      cases hread : HostedCluster.read (.object members) with
      | none =>
        rw [hread] at h
        cases h
      | some cluster =>
        obtain ⟨version, hpatched⟩ := read_setPause hread hspec
          fun _ hcluster => read_insert_pause_cluster hcluster value
        refine ⟨version, ?_⟩
        rw [HostedCluster.read, hpatched]
        rfl
    | nodePool =>
      unfold Api.pauseField Api.decode at h ⊢
      cases hread : NodePool.read (.object members) with
      | none =>
        rw [hread] at h
        cases h
      | some pool =>
        obtain ⟨version, hpatched⟩ := read_setPause hread hspec
          fun _ hpool => read_insert_pause_pool hpool value
        refine ⟨version, ?_⟩
        rw [NodePool.read, hpatched]
        rfl
  | _ => cases hspec

end BackupWatch.Server
