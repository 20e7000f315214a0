import BackupWatch.Proofs.Pause.Partway
import Mathlib.Data.List.Forall2
import Mathlib.Logic.Relation

/-!
Recovery. Calls that bring a workload to a target may be cut short by a refused request, wherever
and however often. The first that succeeds has dealt with all that was left to do, so that together
they have done what one call would have done, and nothing is left to do for another.
-/

namespace BackupWatch.Pause.Scene

open Act Cluster Server

variable {scene : Scene} {base : List Deal} {known : List Key}

/-- What becomes of an object: it gets the value of the target if that is due, and keeps the rest
but its version; else it stays as it was. -/
inductive Turned (scene : Scene) (o : Json) : Json → Prop
  | same (h : ¬ scene.Due o) : Turned scene o o
  | set {later : Json} (h : scene.Due o)
      (value : pausedUntil later = .string scene.target.value)
      (spec : ∀ field, field ≠ "pausedUntil" → (later.member? "spec").bind (Json.member? · field) =
        (o.member? "spec").bind (Json.member? · field))
      (metadata : ∀ field, field ≠ "resourceVersion" →
        (later.member? "metadata").bind (Json.member? · field) =
          (o.member? "metadata").bind (Json.member? · field))
      (rest : ∀ field, field ≠ "spec" → field ≠ "metadata" →
        later.member? field = o.member? field) : Turned scene o later

/-- The workload is at the target, nothing else was done, and nothing was done twice. -/
structure Recovered (scene : Scene) (s : Shared) : Prop where
  cluster : ∃ o, s.objects.find? (placeOf scene.cluster) = some o ∧
    pausedUntil o = .string scene.target.value
  pools : ∀ o ∈ s.objects, OwnedBy scene.cluster o → pausedUntil o = .string scene.target.value
  turned : List.Forall₂ scene.Turned (scene.initial.erase scene.plane)
    (s.objects.erase scene.plane)
  once : (patched s.deals).Nodup
  patches : ∀ key, key ∈ patched s.deals ↔ ∃ o ∈ scene.initial, keyOf o = key ∧ scene.Due o

theorem turned_setPause {o : Json} (h : scene.Due o) :
    scene.Turned o (setPause (some scene.target.value) o) :=
  .set h (pausedUntil_setPause o _) (fun _ hfield => spec_member_setPause o _ hfield)
    (fun _ hfield => metadata_setPause o _ hfield)
    fun _ hspec hmetadata => member?_setPause o _ hspec hmetadata

/-- When all that was due has been patched, each object is as it was or, if due, at the target. -/
theorem Partway.turned {s : Shared} (h : scene.WellFormed) (hs : scene.Partway base [] s)
    (hreached : scene.Reached (patched s.deals)) {o : Json} (ho : o ∈ scene.initial) :
    scene.Turned o (scene.left (patched s.deals) o) := by
  by_cases hdue : scene.Due o
  · rw [left_of_mem (hreached o ho hdue)]
    exact turned_setPause hdue
  · rw [left_of_not_mem]
    · exact .same hdue
    · intro hmem
      obtain ⟨other, hother, hkey, hdue'⟩ := hs.due _ hmem
      cases h.unique hother ho hkey
      exact hdue hdue'

theorem Partway.recovered {s : Shared} (h : scene.WellFormed)
    (hs : scene.Partway base [placeOf scene.cluster] s)
    (hreached : scene.Reached (patched s.deals)) : scene.Recovered s := by
  refine ⟨?_, ?_, ?_, hs.once, fun key => ⟨hs.due key, ?_⟩⟩
  · obtain ⟨o, ho, hkey, hheld⟩ := hs.settled _ (List.mem_singleton.mpr rfl)
    have hplane : keyOf o ≠ scene.plane := hkey ▸ h.aims_cluster.elsewhere
    have hmem := hs.kept.left_mem ho hplane
    cases hfind : s.objects.find? (placeOf scene.cluster) with
    | none =>
      refine absurd (List.find?_eq_none.mp hfind _ hmem) ?_
      simp [hkey]
    | some found =>
      have hplace := Store.keyOf_of_find? hfind
      obtain ⟨first, hfirst, hsame, rfl⟩ := hs.kept.mem (Store.mem_of_find? hfind)
        (hplace ▸ h.aims_cluster.elsewhere)
      cases h.unique hfirst ho (hsame.trans (hplace.trans hkey.symm))
      exact ⟨_, rfl, pausedUntil_left.mpr (hkey ▸ hheld)⟩
  · intro o ho hown
    obtain ⟨first, hfirst, _, rfl⟩ := hs.kept.mem ho
      (h.ne_plane (r := .nodePool) (by decide) hown.resource)
    refine pausedUntil_left.mpr (or_iff_not_imp_left.mpr fun hother => ?_)
    exact hreached first hfirst ⟨Or.inr (ownedBy_left.mp hown), hother⟩
  · rw [hs.kept, List.forall₂_map_right_iff, List.forall₂_same]
    intro o ho
    exact (hs.weaken (List.nil_subset _)).turned h hreached (Store.mem_erase.mp ho).1
  · rintro ⟨o, ho, rfl, hdue⟩
    exact hreached o ho hdue

/-- Calls, one after the other, that may fail at any request or go on without the node pools. In
between time may pass, and another orchestrator may take over. -/
inductive Tried (scene : Scene) :
    Session Shared Orchestrator → Session Shared Orchestrator → Prop
  | call {s : Session Shared Orchestrator} (plane : Option Watch.Identity) :
      Tried scene s (scene.target.call shared.client scene.cluster plane s).2
  | idle {s later : Session Shared Orchestrator} (cluster : later.cluster = s.cluster) :
      Tried scene s later

/-- A new call begins where the last one has ended. -/
theorem Partway.restart {s : Shared} (h : scene.Partway base known s) :
    scene.Partway s.deals [] s :=
  { h with
    settled := by simp
    since := ⟨[], (List.append_nil _).symm, fun _ _ hd => by cases hd⟩ }

/-- A call does no harm, however it ends. -/
theorem keeps_call (h : scene.WellFormed) (plane : Option Watch.Identity) :
    Keeps (scene.At base []) (scene.target.call shared.client scene.cluster plane) :=
  (ends_call h plane).imp (fun _ hs => hs) (fun _ _ hs => hs.1.weaken (List.nil_subset _))
    fun _ _ hs => hs

/-- Calls, however many and however they end, leave the scene partway. -/
theorem partway_of_tried (h : scene.WellFormed) {start s : Session Shared Orchestrator}
    (hstart : scene.At (deals start) [] start)
    (htried : Relation.ReflTransGen scene.Tried start s) : scene.At (deals s) [] s := by
  induction htried with
  | refl => exact hstart
  | @tail s later _ hstep ih =>
    cases hstep with
    | call _ => exact Partway.restart ((keeps_call h _).run ih)
    | idle hcluster =>
      unfold At at ih ⊢
      rwa [deals, hcluster]

/-- Before the first call nothing has been patched and nothing is known. -/
theorem partway_start {others : Nat → Interference}
    (hcalm : ∀ n store, ((others n).change store).erase scene.plane = store.erase scene.plane) :
    scene.Partway [] [] ⟨scene.initial, others, []⟩ := by
  refine ⟨hcalm, ?_, List.nodup_nil, by simp [patched], by simp, [], rfl, by simp⟩
  exact (List.map_id _).symm

/-- Calls that are cut short do no harm. When others change nothing but the control plane, and any
request may be refused, then after any number of calls the first one that succeeds leaves the
workload at the target and all else as it was when the first call began. All calls together have
patched each object once that was due, and no other, and further calls patch nothing. A refusal that
the client takes for an empty list of node pools is not one that cuts a call short, and is excluded
for the call that succeeds. -/
theorem interrupted_calls_recover (h : scene.WellFormed) {others : Nat → Interference}
    (hcalm : ∀ n store, ((others n).change store).erase scene.plane = store.erase scene.plane)
    {start s : Session Shared Orchestrator} (hstart : start.cluster = ⟨scene.initial, others, []⟩)
    (htried : Relation.ReflTransGen scene.Tried start s) {plane : Option Watch.Identity}
    (hok : (scene.target.call shared.client scene.cluster plane s).1 = .ok ())
    (hlisted : ¬ scene.Missed (deals s)
      (scene.target.call shared.client scene.cluster plane s).2) :
    scene.Recovered (scene.target.call shared.client scene.cluster plane s).2.cluster ∧
      ∀ further plane', further.cluster =
          (scene.target.call shared.client scene.cluster plane s).2.cluster →
        ∃ new, deals (scene.target.call shared.client scene.cluster plane' further).2 =
          deals further ++ new ∧ ∀ d ∈ new, d.patches = false := by
  have hbegin : scene.At (deals start) [] start := by
    unfold At
    rw [deals, hstart]
    exact partway_start hcalm
  obtain ⟨hlast, hreached⟩ := (ends_call h plane).of_ok (partway_of_tried h hbegin htried) hok
  have hdone := hreached.resolve_right hlisted
  refine ⟨hlast.recovered h hdone, fun further plane' hfurther => ?_⟩
  have hagain : scene.At (deals further) [] further := by
    unfold At
    rw [deals, hfurther]
    exact hlast.restart
  obtain ⟨new, hnew, hquiet⟩ := ((keeps_call h plane').run hagain).since
  refine ⟨new, hnew, hquiet ?_⟩
  rw [deals, hfurther]
  exact hdone

def sampleObject (kind ns name : String) (spec : Json.Members) : Json :=
  .object [("kind", .string kind),
    ("metadata", .object [("name", .string name), ("namespace", .string ns),
      ("resourceVersion", .string "7")]),
    ("spec", .object spec)]

theorem proper_sampleObject (kind : String) {ns name : String} (h : Plain ns name)
    (spec : Json.Members) : Proper (sampleObject kind ns name spec) :=
  ⟨⟨ns, name, rfl, rfl, h⟩, spec, rfl⟩

/-- A cluster with two pools, one of which is paused already, beside a pool of another cluster. -/
def sampleScene : Scene where
  target := .pause
  cluster := ⟨.hostedCluster, "clusters", "prod"⟩
  plane := ⟨Served.controlPlane.name, some "clusters-prod", some "prod"⟩
  initial := [
    sampleObject "HostedCluster" "clusters" "prod" [],
    sampleObject "HostedControlPlane" "clusters-prod" "prod" [],
    sampleObject "NodePool" "clusters" "edge"
      [("clusterName", .string "prod"), ("pausedUntil", .string "true")],
    sampleObject "NodePool" "clusters" "workers" [("clusterName", .string "prod")],
    sampleObject "NodePool" "clusters" "others" [("clusterName", .string "test")]]

theorem wellFormed_sampleScene : sampleScene.WellFormed where
  kind := rfl
  names := ⟨⟨by decide, by decide⟩, by decide, ⟨by decide, by decide⟩, by decide⟩
  plane := rfl
  keys := by decide +kernel
  proper := by
    intro o ho _
    simp only [sampleScene, List.mem_cons, List.not_mem_nil, or_false] at ho
    rcases ho with rfl | rfl | rfl | rfl | rfl <;>
      exact proper_sampleObject _ ⟨⟨by decide, by decide⟩, by decide, ⟨by decide, by decide⟩,
        by decide⟩ _

/-- The control plane follows at the third request, and the seventh is refused. -/
def sampleOthers (n : Nat) : Interference where
  change store :=
    if n = 2 then store.update sampleScene.plane (setPause (some "true")) else store
  refusal := if n = 6 then some ⟨500, "InternalError", "try again"⟩ else none

def sampleStart : Session Shared Orchestrator :=
  ⟨0, fun _ => 0, ⟨sampleScene.initial, sampleOthers, []⟩,
    .new .standard ⟨.ofSeconds 120, .ofSeconds 2⟩⟩

def sampleCall (s : Session Shared Orchestrator) :
    Except Failure Unit × Session Shared Orchestrator :=
  sampleScene.target.call shared.client sampleScene.cluster
    (some ⟨"prod", some "clusters-prod"⟩) s

/-- The session after two calls, the first of which is refused the patch of a pool. -/
def sampleEnd : Session Shared Orchestrator := (sampleCall (sampleCall sampleStart).2).2

theorem run_sampleCall : (sampleCall sampleStart).1.isOk = false ∧
    (sampleCall (sampleCall sampleStart).2).1.isOk = true ∧
    (deals sampleEnd).all (fun d => d.result.isOk || d.route.verb != .list) = true ∧
    patched (deals sampleEnd) = [⟨"hostedclusters", some "clusters", some "prod"⟩,
      ⟨"nodepools", some "clusters", some "workers"⟩] := by
  decide +kernel

theorem calm_sampleOthers (n : Nat) (store : Store) :
    ((sampleOthers n).change store).erase sampleScene.plane = store.erase sampleScene.plane := by
  unfold sampleOthers
  dsimp only
  split
  · exact Store.erase_update_self fun o => keyOf_setPause o _
  · rfl

/-- The second call makes up for the patch that the first one was refused, and repeats no other. -/
theorem interrupted_calls_recover_refused_patch :
    (sampleCall sampleStart).1.isOk = false ∧ sampleScene.Recovered sampleEnd.cluster ∧
      patched (deals sampleEnd) = [⟨"hostedclusters", some "clusters", some "prod"⟩,
        ⟨"nodepools", some "clusters", some "workers"⟩] := by
  obtain ⟨hfailed, hdone, hlists, hpatched⟩ := run_sampleCall
  have htried : Relation.ReflTransGen sampleScene.Tried sampleStart (sampleCall sampleStart).2 :=
    .single (.call _)
  have hok : (sampleCall (sampleCall sampleStart).2).1 = .ok () := by
    cases hresult : (sampleCall (sampleCall sampleStart).2).1 with
    | ok _ => rfl
    | error f =>
      rw [hresult] at hdone
      cases hdone
  refine ⟨hfailed, ?_, hpatched⟩
  refine (interrupted_calls_recover wellFormed_sampleScene calm_sampleOthers rfl htried hok ?_).1
  rintro ⟨new, hnew, d, hd, hroute, status, hresult, _⟩
  have hend : deals sampleEnd = _ := hnew
  have hlist := List.all_eq_true.mp hlists d (by rw [hend]; exact List.mem_append_right _ hd)
  rw [hresult, hroute] at hlist
  cases hlist

/-- The same cluster, but it is the list of the node pools that is refused, as not found. -/
def missedStart : Session Shared Orchestrator :=
  { sampleStart with cluster.others := fun n => { sampleOthers n with
      refusal := if n = 3 then some ⟨404, "NotFound", "no such resource"⟩ else none } }

theorem run_missedStart : (sampleCall missedStart).1.isOk = true ∧
    patched (deals (sampleCall missedStart).2) =
      [⟨"hostedclusters", some "clusters", some "prod"⟩] ∧
    patched (deals (sampleCall (sampleCall missedStart).2).2) =
      [⟨"hostedclusters", some "clusters", some "prod"⟩,
        ⟨"nodepools", some "clusters", some "workers"⟩] := by
  decide +kernel

/-- Not every call that succeeds has dealt with all: without a list of the node pools the first one
leaves a pool to the second. -/
theorem unlisted_pool_left_behind :
    sampleScene.WellFormed ∧
      (∀ n store, ((missedStart.cluster.others n).change store).erase sampleScene.plane =
        store.erase sampleScene.plane) ∧
      missedStart.cluster.objects = sampleScene.initial ∧
      (sampleCall missedStart).1.isOk = true ∧
      ¬ sampleScene.Recovered (sampleCall missedStart).2.cluster ∧
      patched (deals (sampleCall (sampleCall missedStart).2).2) =
        patched (deals (sampleCall missedStart).2) ++
          [⟨"nodepools", some "clusters", some "workers"⟩] := by
  obtain ⟨hok, hpatched, hagain⟩ := run_missedStart
  refine ⟨wellFormed_sampleScene, calm_sampleOthers, rfl, hok, fun hrecovered => ?_, ?_⟩
  · have hdue : sampleScene.Due
        (sampleObject "NodePool" "clusters" "workers" [("clusterName", .string "prod")]) := by
      refine ⟨Or.inr ⟨rfl, rfl, rfl⟩, fun hpaused => ?_⟩
      cases hpaused
    have hmem : ⟨"nodepools", some "clusters", some "workers"⟩ ∈
        patched (deals (sampleCall missedStart).2) :=
      (hrecovered.patches _).mpr ⟨_, by simp [sampleScene], rfl, hdue⟩
    rw [hpatched] at hmem
    exact absurd hmem (by decide)
  · rw [hagain, hpatched]
    rfl

end BackupWatch.Pause.Scene
