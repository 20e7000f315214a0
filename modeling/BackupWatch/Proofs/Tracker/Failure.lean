import BackupWatch.Proofs.Job.Failure
import BackupWatch.Proofs.Tracker.Obliging
import Mathlib.Control.Monad.Basic

/-!
What the failure of a watched job means for the rest of a backup. A tracker remembers no failure:
the stage that it blames stays unfinished, and nothing is resumed before a later check has listed
the stage again and found nothing failed.
-/

namespace BackupWatch.Tracker

open Act Cluster Job Pause Watch

variable {κ α : Type} {client : Client κ}

/-- The failures that a tracker reports blame only stages that have not finished. -/
abbrev Honest (act : Act κ Tracker α) : Prop := Raises act fun f s => s.own.progress.Explains f

/-- An act that throws no job failure is honest for want of anything to explain. -/
theorem honest_of_spares {act : Act κ Tracker α} (h : Spares act) : Honest act :=
  h.imp fun _ _ hf => Progress.explains_of_not_isJob hf

/-- What a check explains about its progress it explains about the tracker around it. -/
theorem honest_onProgress {act : Act κ Progress α}
    (h : Raises act fun f s => s.own.Explains f) : Honest (onProgress act) :=
  raises_within h fun _ _ _ hf => hf

theorem spares_liftDiscovery (result : Except DiscoveryFault α) :
    Spares (liftDiscovery result : Act κ Tracker α) := by
  refine raises_ofExcept fun e s he => ?_
  cases result with
  | ok a => cases he
  | error fault =>
    cases he
    simp [Failure.IsJob, Failure.Blames, DiscoveryFault.toError]

section Orchestrator

/-- Bringing one object to its target fails for its requests and retries only. -/
theorem spares_bring (hclient : client.FailsNoJob) (target : Target) (object : Managed) :
    Spares (Orchestrator.bring client target object) := by
  have hrecord : ∀ state, Spares (Orchestrator.recordState (κ := κ) object state) :=
    fun state => raises_bind raises_own fun _ => raises_setOwn _
  have hattempt : Spares (Pause.attempt client object target.value : Act κ Orchestrator Bool) := by
    refine raises_bind (hclient.spares_ask _) fun observed => raises_ite (raises_pure _) ?_
    exact raises_bind (hclient.spares_ask _) fun _ => raises_pure _
  have hreach : Spares (do
      let _ ← apply client (← Act.own).retry object target.value
      Orchestrator.recordState object target.reached) :=
    raises_bind raises_own fun o => raises_bind (Retry.spares_run o.retry _ hattempt) fun _ =>
      hrecord _
  exact raises_ite (raises_bind (hrecord _) fun _ => hreach) hreach

/-- Bringing objects in a row throws no job failure, since no single one does. -/
theorem spares_bringAll (hclient : client.FailsNoJob) (target : Target)
    (objects : List Managed) : Spares (Orchestrator.bringAll client target objects) := by
  induction objects with
  | nil => exact raises_pure ()
  | cons object rest ih => exact raises_bind (spares_bring hclient target object) fun _ => ih

/-- Waiting for the control plane ends in a timeout or an API error, not in a job failure. -/
theorem spares_awaitPropagation (hclient : client.FailsNoJob) (plane : Option Identity) :
    Spares (Orchestrator.awaitPropagation client plane) := by
  cases plane with
  | none => exact raises_pure ()
  | some id =>
    have hlook : Spares (Orchestrator.propagated client id Target.pause.value) := by
      refine raises_bind (hclient.spares_ask _) fun found => ?_
      cases found with
      | none => exact raises_pure _
      | some _ => exact raises_pure _
    refine raises_bind raises_own fun o => ?_
    exact raises_bind (Poll.raises_run o.propagation _ hlook fun _ _ h => h) fun _ => raises_pure ()

/-- A pause throws no job failure: it lists no backup objects. -/
theorem spares_pause (hclient : client.FailsNoJob) (cluster : Managed) (plane : Option Identity) :
    Spares (Orchestrator.pause client cluster plane) :=
  raises_bind (spares_bring hclient .pause cluster) fun _ =>
    raises_bind (spares_awaitPropagation hclient plane) fun _ =>
      raises_bind (hclient.spares_ask _) fun pools => spares_bringAll hclient .pause pools

/-- A resume throws no job failure: it lists no backup objects. -/
theorem spares_resume (hclient : client.FailsNoJob) (cluster : Managed) :
    Spares (Orchestrator.resume client cluster) :=
  raises_bind (spares_bring hclient .resume cluster) fun _ =>
    raises_bind (hclient.spares_ask _) fun pools => spares_bringAll hclient .resume pools

end Orchestrator

theorem spares_onOrchestrator {act : Act κ Orchestrator α} (h : Spares act) :
    Spares (onOrchestrator act) :=
  raises_within h fun _ _ _ hf => hf

/-- The pause entry seeds and pauses; neither judges an object, so neither blames one. -/
theorem spares_ensurePaused (hclient : client.FailsNoJob) :
    Spares (Tracker.ensurePaused client) := by
  unfold Tracker.ensurePaused
  refine raises_bind raises_own fun t => raises_ite (raises_pure ()) ?_
  refine raises_bind (raises_within (Progress.spares_seedAll hclient t.ctx) fun _ _ _ h => h)
    fun _ => raises_bind (spares_liftDiscovery _) fun cluster => ?_
  refine raises_bind (spares_onOrchestrator (spares_pause hclient cluster _)) fun _ => ?_
  exact raises_bind raises_own fun _ => raises_setOwn _

/-- Concluding resumes at most, and a resume throws no job failure. -/
theorem spares_conclude (hclient : client.FailsNoJob) : Spares (conclude client) := by
  have hresume : Spares (resumeOnce client) := by
    unfold resumeOnce
    refine raises_bind raises_own fun t => raises_ite (raises_pure ()) ?_
    refine raises_ite (raises_pure ()) (raises_bind (spares_liftDiscovery _) fun cluster => ?_)
    refine raises_bind (spares_onOrchestrator (spares_resume hclient cluster)) fun _ => ?_
    exact raises_bind raises_own fun _ => raises_setOwn _
  exact raises_bind hresume fun _ => raises_bind raises_own fun _ => raises_pure _

/-- A job failure of a check blames a stage that has not finished. -/
theorem honest_check (hclient : client.FailsNoJob) : Honest (Tracker.check client) :=
  raises_bind raises_own fun t => honest_onProgress (Progress.raises_pass hclient t.ctx)

/-- A data item throws job failures through its check only. -/
theorem honest_executeData (hclient : client.FailsNoJob) : Honest (executeData client) := by
  have hconclude := honest_of_spares (spares_conclude hclient)
  unfold executeData
  refine raises_bind raises_own fun t => raises_ite ?_ hconclude
  refine raises_bind (honest_check hclient) fun _ => raises_bind raises_own fun _ => ?_
  exact raises_ite (raises_pure _) hconclude

/-- Whichever entry throws a job failure, it blames a stage that has not finished. -/
theorem honest_entry (hclient : client.FailsNoJob) (entry : Entry) :
    Honest (entry.run client) := by
  have hpause := honest_of_spares (spares_ensurePaused hclient)
  cases entry with
  | execute item =>
    refine raises_ite (raises_bind hpause fun _ => raises_pure _) ?_
    exact raises_bind raises_own fun _ => raises_ite (raises_pure _) (honest_executeData hclient)
  | ensurePaused => exact hpause
  | check => exact honest_check hclient
  | finalize =>
    refine raises_bind raises_own fun t => raises_bind ?_ fun _ =>
      honest_of_spares (spares_conclude hclient)
    exact honest_onProgress (Progress.raises_wait hclient t.ctx t.upload)

/-- Wherever progress has finished after a call has failed for a job of some kind, that kind has
been finished in between. -/
theorem finishedBetween_of_failed (hclient : client.FailsNoJob)
    {s later : Session (Chronicle κ) Tracker} {entry : Entry} {f : Failure} {kind : Kind}
    (hfailed : (entry.run client.recorded s).1 = .error f) (hblames : f.Blames kind)
    (hpath : Path client (entry.run client.recorded s).2 later)
    (hsound : later.own.progress.Sound) (hfinished : later.own.progress.finished = true) :
    FinishedBetween client (entry.run client.recorded s).2 later kind := by
  obtain ⟨hmem, hopen⟩ := honest_entry (failsNoJob_recorded hclient) entry s f hfailed kind hblames
  refine hpath.finishedBetween hopen (hsound hfinished kind ?_)
  rw [hpath.advances.progress.chain]
  exact hmem

/-- No write and no answer after a failed call says that the workload runs again, unless a check in
between has listed the kind that was blamed and found nothing failed. -/
structure Rechecked (client : Client κ) (failed later : Session (Chronicle κ) Tracker)
    (kind : Kind) : Prop where
  writes : ∀ before object observed result after,
    later.history = failed.history ++ before ++
      ⟨.writePause object observed "false", result⟩ :: after →
    ∃ m during, Path client m later ∧ failed.history ++ before = m.history ++ during ∧
      FinishedBetween client failed m kind
  answers : ∀ (next : Entry) (answer : next.Answer),
    (next.run client.recorded later).1 = .ok answer → next.saysResumed answer →
    FinishedBetween client failed (next.run client.recorded later).2 kind

section Rechecked

variable {ctx : Context} {config : Config} {start s later : Session (Chronicle κ) Tracker}
variable {entry : Entry} {f : Failure} {kind : Kind}

/-- After a job failure nothing is remembered: the kind is checked again before any resume. -/
theorem rechecked_of_failed (hclient : client.FailsNoJob)
    (hstart : start.own = Tracker.new ctx config) (hrun : Run client start s)
    (hfailed : (entry.run client.recorded s).1 = .error f) (hblames : f.Blames kind)
    (hlater : Run client (entry.run client.recorded s).2 later) :
    Rechecked client (entry.run client.recorded s).2 later kind := by
  have hfailing : Path client start (entry.run client.recorded s).2 :=
    hrun.path.trans (leads_entry client entry s trivial).1
  constructor
  case writes =>
    intro before object observed result after hwrite
    obtain ⟨m, after', during, hm, hhas, hafter, hsame⟩ := hlater.path.exists_step hwrite
    have hwriting : Writing client m after' during object .resume := hhas.writing
    cases hwriting with
    | resume hmay _ _ =>
      refine ⟨m, during, .head hhas.step hafter, hsame, ?_⟩
      exact finishedBetween_of_failed hclient hfailed hblames hm
        (Path.sound hstart (hfailing.trans hm)) hmay.finished
  case answers =>
    intro next answer hok hsays
    obtain ⟨hnext, hresumed⟩ := leads_entry client next later trivial
    have hpath := hlater.path.trans hnext
    exact finishedBetween_of_failed hclient hfailed hblames hpath
      (Path.sound hstart (hfailing.trans hpath)) (hresumed answer hok hsays).1

end Rechecked

/-- After a call has failed for a job of some kind, the workload is resumed, or said to have been
resumed, only once a check has listed that kind again and found nothing failed. -/
theorem resumed_after_failure_only_if_finished (hclient : client.FailsNoJob) {ctx : Context}
    {config : Config} {start s : Session (Chronicle κ) Tracker}
    (hstart : start.own = Tracker.new ctx config) (hrun : Run client start s) {entry : Entry}
    {f : Failure} {kind : Kind} (hfailed : (entry.run client.recorded s).1 = .error f)
    (hblames : f.Blames kind) {later : Session (Chronicle κ) Tracker}
    (hlater : Run client (entry.run client.recorded s).2 later) :
    (∀ before object observed result after,
      later.history = (entry.run client.recorded s).2.history ++ before ++
        ⟨.writePause object observed "false", result⟩ :: after →
      ∃ m during, Path client m later ∧
        (entry.run client.recorded s).2.history ++ before = m.history ++ during ∧
        FinishedBetween client (entry.run client.recorded s).2 m kind) ∧
    (∀ (next : Entry) (answer : next.Answer), (next.run client.recorded later).1 = .ok answer →
      next.saysResumed answer →
      FinishedBetween client (entry.run client.recorded s).2 (next.run client.recorded later).2
        kind) := by
  have hrechecked := rechecked_of_failed hclient hstart hrun hfailed hblames hlater
  exact ⟨hrechecked.writes, hrechecked.answers⟩

/-- The client of an API server never answers with the failure of a job, so what follows a failure
needs no condition there. -/
theorem rechecked_of_failed_api (api : Api κ) {ctx : Context} {config : Config}
    {start s later : Session (Chronicle κ) Tracker} (hstart : start.own = Tracker.new ctx config)
    (hrun : Run api.client start s) {entry : Entry} {f : Failure} {kind : Kind}
    (hfailed : (entry.run api.client.recorded s).1 = .error f) (hblames : f.Blames kind)
    (hlater : Run api.client (entry.run api.client.recorded s).2 later) :
    Rechecked api.client (entry.run api.client.recorded s).2 later kind :=
  rechecked_of_failed api.failsNoJob hstart hrun hfailed hblames hlater

def holding : Client (List Object) where
  accepts _ := true
  reply request _ objects := match request with
    | .list kind _ => ⟨.ok (objects.filter fun o => o.kind = kind), 0, objects⟩
    | .readPause _ => ⟨.ok ⟨none, none⟩, 0, objects⟩
    | .writePause _ _ _ => ⟨.ok (), 0, objects⟩
    | .nodePools _ => ⟨.ok [], 0, objects⟩
    | .controlPlane _ => ⟨.ok none, 0, objects⟩
    | .controlPlanesIn _ => ⟨.ok [], 0, objects⟩

/-- The client that shows a fixed list of objects refuses no request. -/
theorem failsNoJob_holding : holding.FailsNoJob := by
  intro request clock objects e he
  cases request <;> cases he

def failedUpload : Object :=
  ⟨.dataUpload, ⟨"nightly-upload-0", some "openshift-adp"⟩, [], none, .failed, none⟩

def failingStart : Session (Chronicle (List Object)) Tracker :=
  ⟨0, fun _ => 0, ⟨[failedUpload], []⟩, Tracker.new sampleContext .standard⟩

def cleared (s : Session (Chronicle (List Object)) Tracker) :
    Session (Chronicle (List Object)) Tracker :=
  { s with cluster := ⟨[], s.history⟩ }

theorem turn_cleared (s : Session (Chronicle (List Object)) Tracker) :
    Turn holding s (cleared s) := .idle rfl rfl

/-- The next pod resumes since its own check has found no upload any more. -/
theorem finished_between_failure_and_resume :
    let failed := ((Entry.execute samplePod).run holding.recorded failingStart).2
    FinishedBetween holding failed
      ((Entry.execute samplePod).run holding.recorded (cleared failed)).2 .dataUpload := by
  have hstart : failingStart.own = Tracker.new sampleContext .standard := rfl
  have hfailed : ((Entry.execute samplePod).run holding.recorded failingStart).1 = .error (.error
      (.jobFailed .dataUpload "openshift-adp/nightly-upload-0" "Failed" none)) := by
    decide +kernel
  have hresumed := resumed_after_failure_only_if_finished failsNoJob_holding hstart .refl hfailed
    ⟨_, _, _, rfl⟩ (.single (turn_cleared _))
  exact hresumed.2 (.execute samplePod) .resumed (by decide +kernel) rfl

/-- A failure is not remembered: with the failed upload deleted the next pod resumes. -/
theorem failure_not_remembered :
    let failed := ((Entry.execute samplePod).run holding.recorded failingStart).2
    let resumed := ((Entry.execute samplePod).run holding.recorded (cleared failed)).2
    ((Entry.execute samplePod).run holding.recorded failingStart).1 = .error (.error
      (.jobFailed .dataUpload "openshift-adp/nightly-upload-0" "Failed" none)) ∧
    Turn holding failed (cleared failed) ∧
    ((Entry.execute samplePod).run holding.recorded (cleared failed)).1 = .ok .resumed ∧
    .writePause sampleCluster ⟨none, none⟩ "false" ∈ resumed.history.map Exchange.request := by
  refine ⟨?_, turn_cleared _, ?_, ?_⟩
  · decide +kernel
  · decide +kernel
  · decide +kernel

end BackupWatch.Tracker
