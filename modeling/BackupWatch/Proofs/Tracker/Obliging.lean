import BackupWatch.Proofs.Grants
import BackupWatch.Proofs.Tracker.History

/-!
A client that grants every write, for a cluster without watched objects. On it nothing stands in
the way of a tracker: leftovers are recorded, and whoever may pause writes to the hosted cluster.
-/

namespace BackupWatch.Tracker

open Act Cluster Job Pause Watch

variable {σ : Type}

def obliging : Client Unit where
  accepts _ := true
  reply request _ _ := match request with
    | .list _ _ => ⟨.ok [], 0, ()⟩
    | .readPause _ => ⟨.ok ⟨none, none⟩, 0, ()⟩
    | .writePause _ _ _ => ⟨.ok (), 0, ()⟩
    | .nodePools cluster => ⟨.ok [⟨.nodePool, cluster.ns, "workers"⟩], 0, ()⟩
    | .controlPlane _ => ⟨.ok none, 0, ()⟩
    | .controlPlanesIn _ => ⟨.ok [], 0, ()⟩

theorem grants_obliging : obliging.Grants := by
  refine ⟨fun _ => rfl, fun request _ _ => ?_⟩
  cases request <;> exact ⟨_, rfl⟩

def written (object : Managed) (value : String) (s : Session (Chronicle Unit) σ) :
    Session (Chronicle Unit) σ :=
  obliging.recorded.after (.writePause object ⟨none, none⟩ value)
    (obliging.recorded.after (.readPause object) s)

theorem history_written (object : Managed) (value : String) (s : Session (Chronicle Unit) σ) :
    (written object value s).history = s.history ++ [⟨.readPause object, .ok ⟨none, none⟩⟩,
      ⟨.writePause object ⟨none, none⟩ value, .ok ()⟩] := by
  rw [written, Session.history_after, Session.history_after, List.append_assoc]
  rfl

/-- An obliging cluster is paused by one read and one write. -/
theorem bring_pause_obliging (cluster : Managed) (s : Session (Chronicle Unit) Orchestrator) :
    Orchestrator.bring obliging.recorded .pause cluster s =
      (.ok (), { written cluster "true" s with own := s.own.record cluster .paused }) := by
  have hattempt : Pause.attempt obliging.recorded cluster Target.pause.value s =
      (.ok true, written cluster "true" s) := rfl
  have happly : Pause.apply obliging.recorded s.own.retry cluster Target.pause.value s = _ :=
    Retry.run_of_ok hattempt
  unfold Orchestrator.bring
  rw [if_neg (by decide)]
  simp only [run_bind, run_own, happly]
  rfl

/-- On an obliging cluster a pause writes to the hosted cluster, whatever comes of it. -/
theorem mem_history_pause_obliging (cluster : Managed) (plane : Option Identity)
    (s : Session (Chronicle Unit) Orchestrator) :
    ∃ new, (Orchestrator.pause obliging.recorded cluster plane s).2.history = s.history ++ new ∧
      ⟨.writePause cluster ⟨none, none⟩ "true", .ok ()⟩ ∈ new := by
  have hpermits : obliging.recorded.Permits (fun _ => True)
      (Session.Sends fun _ => True : Session (Chronicle Unit) Orchestrator → _ → Prop) :=
    Session.permits_sends obliging fun _ _ _ => trivial
  have hrest : Moves (Session.Sends fun _ => True) (do
      Orchestrator.awaitPropagation obliging.recorded plane
      let pools : List Managed ← obliging.recorded.ask (.nodePools cluster)
      Orchestrator.bringAll obliging.recorded .pause pools) := by
    refine leads_bind _ (Orchestrator.moves_awaitPropagation hpermits plane fun _ => trivial)
      fun _ => leads_bind _ (moves_ask hpermits trivial) fun pools => ?_
    exact Orchestrator.moves_bringAll hpermits (fun _ _ => .of_history_eq rfl)
      fun _ _ _ _ => trivial
  obtain ⟨more, hmore, _⟩ := (hrest { written cluster "true" s with
    own := s.own.record cluster .paused } trivial).1
  refine ⟨[⟨.readPause cluster, .ok ⟨none, none⟩⟩,
    ⟨.writePause cluster ⟨none, none⟩ "true", .ok ()⟩] ++ more, ?_, by simp⟩
  unfold Orchestrator.pause
  rw [run_bind, bring_pause_obliging, ← List.append_assoc, ← history_written]
  exact hmore

/-- A tracker without the pause mark pauses on an obliging cluster. -/
theorem mem_history_ensurePaused_obliging {cluster : Managed}
    {s : Session (Chronicle Unit) Tracker} (hunpaused : s.own.paused = false)
    (hcluster : s.own.ctx.hostedCluster = some cluster) :
    ∃ new, (Tracker.ensurePaused obliging.recorded s).2.history = s.history ++ new ∧
      ⟨.writePause cluster ⟨none, none⟩ "true", .ok ()⟩ ∈ new := by
  obtain ⟨_, hok⟩ := Progress.succeeds_seedAll grants_obliging.recorded s.own.ctx
    (s.focus Tracker.progress)
  obtain ⟨hpath, _⟩ := leads_onProgress obliging (fun own => own.ctx = s.own.ctx) (fun _ h => h)
    (fun _ _ h => h) (Progress.leads_seedAll s.own.progress.chain) s ⟨rfl, rfl⟩
  obtain ⟨seeds, hseeds⟩ := hpath.grows
  rcases hrun : onProgress (Progress.seedAll obliging.recorded s.own.ctx) s with ⟨e | _, seeded⟩
  · have hfirst : (onProgress (Progress.seedAll obliging.recorded s.own.ctx) s).1 = .ok _ := hok
    rw [hrun] at hfirst
    cases hfirst
  · rw [hrun] at hseeds
    have hdiscovery : (liftDiscovery (hostedCluster s.own.ctx) : Act (Chronicle Unit) Tracker _)
        seeded = (.ok cluster, seeded) := by
      simp only [hostedCluster, hcluster]
      rfl
    obtain ⟨pauses, hpauses, hmem⟩ := mem_history_pause_obliging cluster s.own.ctx.controlPlane
      (seeded.focus Tracker.orchestrator)
    refine ⟨seeds ++ pauses, ?_, List.mem_append_right seeds hmem⟩
    unfold Tracker.ensurePaused
    rw [run_bind, run_own]
    simp only [hunpaused, Bool.false_eq_true, if_false]
    rw [run_bind, hrun]
    simp only
    rw [run_bind, hdiscovery]
    change (pauseNow obliging.recorded s.own.ctx cluster seeded).2.history = _
    refine (history_marked _ _ seeded).trans ?_
    rw [hpauses, ← List.append_assoc, ← hseeds]
    rfl

def sampleCluster : Managed := ⟨.hostedCluster, "clusters", "prod"⟩

def sampleContext : Context :=
  { Context.new "nightly" "openshift-adp" ["clusters-prod"] with
    hostedCluster := some sampleCluster }

def samplePod : Item := ⟨"Pod", some "clusters-prod", "etcd-0"⟩

def sampleStart : Session (Chronicle Unit) Tracker :=
  ⟨0, fun _ => 0, ⟨(), []⟩, Tracker.new sampleContext .standard⟩

end BackupWatch.Tracker
