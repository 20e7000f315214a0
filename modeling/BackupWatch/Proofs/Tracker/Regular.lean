import BackupWatch.Proofs.Job.InTime
import BackupWatch.Proofs.Tracker.Calls
import BackupWatch.Proofs.Tracker.Obliging

/-!
The end of a regular backup. A fresh tracker may be asked to pause before, or not; once it is
finalized on a regular history it resumes the workload, or leaves it paused for a migration, and
whenever it writes the value of a resume, all data is complete.
-/

namespace BackupWatch.Tracker

open Act Cluster Job Pause Watch

variable {κ α : Type}

/-- A tracker is asked to pause, whatever comes of it, or time passes. -/
inductive Pausing (client : Client κ) : Session κ Tracker → Session κ Tracker → Prop
  | call (s : Session κ Tracker) : Pausing client s (Tracker.ensurePaused client s).2
  | wait (s : Session κ Tracker) (n : Nat) : Pausing client s (s.pass n)

section Frame

variable {act : Act κ Progress α} {pre : Session κ Progress → Prop}
variable {post : α → Session κ Progress → Prop} {ex : Failure → Session κ Progress → Prop}

theorem ends_onProgress (h : Ends pre act post ex) (frame : Tracker → Prop)
    (hframe : ∀ t progress, frame t → frame { t with progress }) :
    Ends (fun s => frame s.own ∧ pre (s.focus Tracker.progress)) (onProgress act)
      (fun a s => frame s.own ∧ post a (s.focus Tracker.progress))
      fun f s => frame s.own ∧ ex f (s.focus Tracker.progress) := by
  intro s hs
  have hend := h _ hs.2
  rw [onProgress, run_within]
  generalize act (s.focus Tracker.progress) = result at hend
  cases hend with
  | ok hpost => exact .ok ⟨hframe s.own _ hs.1, hpost⟩
  | error hex => exact .error ⟨hframe s.own _ hs.1, hex⟩

end Frame

/-- Requests that write no value of a resume. -/
def Harmless (request : Request) : Prop :=
  ∀ object observed, request ≠ .writePause object observed Target.resume.value

theorem harmless_list (kind : Kind) (ns : Option String) : Harmless (.list kind ns) := by
  intro object observed h
  cases h

theorem harmless_of_asks_pause {request : Request} (h : Target.pause.asks request) :
    Harmless request := by
  rintro object observed rfl
  exact absurd (show "false" = "true" from h) (by decide)

section Requests

variable {t : Timeline} {asked : Request → Prop}

theorem asks_onProgress {act : Act Journal Progress α}
    (h : Moves (Session.Asks asked) act) : Moves (Session.Asks asked) (onProgress act) := by
  intro s _
  obtain ⟨hclock, hjournal⟩ := (h (s.focus Tracker.progress) trivial).1
  exact ⟨⟨hclock, hjournal⟩, fun _ _ => trivial⟩

theorem asks_onOrchestrator {act : Act Journal Orchestrator α}
    (h : Moves (Session.Asks asked) act) : Moves (Session.Asks asked) (onOrchestrator act) := by
  intro s _
  obtain ⟨hclock, hjournal⟩ := (h (s.focus Tracker.orchestrator) trivial).1
  exact ⟨⟨hclock, hjournal⟩, fun _ _ => trivial⟩

theorem asks_marked {act : Act Journal Orchestrator Unit} {mark : Tracker → Tracker}
    (h : Moves (Session.Asks asked) act) : Moves (Session.Asks asked) (marked act mark) := by
  refine leads_bind _ (asks_onOrchestrator h) fun _ => ?_
  exact leads_bind (fun _ _ => True) (leads_own fun _ _ => trivial) fun own s _ =>
    ⟨Session.asks_own s (mark own), fun _ _ => trivial⟩

/-- A pause entry asks for nothing that can resume the workload. -/
theorem asks_ensurePaused (t : Timeline) :
    Moves (Session.Asks Harmless) (Tracker.ensurePaused t.client) := by
  refine moves_ensurePaused_of (fun ctx => asks_onProgress ?_) fun ctx cluster => asks_marked ?_
  · intro s _
    have hlead : Leads (Progress.Path t.client ctx) _ (Progress.seedAll t.client ctx) _ :=
      Progress.leads_seedAll s.own.chain
    exact ⟨(hlead s rfl).1.asks harmless_list, fun _ _ => trivial⟩
  · exact Orchestrator.moves_pause (Session.permits_asks t Harmless) Session.asks_own
      (fun _ => harmless_of_asks_pause) cluster ctx.controlPlane

theorem asks_conclude (t : Timeline) :
    Moves (Session.Asks fun _ => True) (conclude t.client) := by
  refine moves_conclude_of fun cluster s _ _ => (asks_marked ?_ s trivial).1
  exact Orchestrator.moves_resume (Session.permits_asks t fun _ => True) Session.asks_own
    (fun _ _ => trivial) cluster

end Requests

/-- A tracker that was made for a job, and has done no more than pause. -/
structure Made (ctx : Context) (config : Config) (own : Tracker) : Prop where
  ctx : own.ctx = (Tracker.new ctx config).ctx
  upload : own.upload = config.upload
  unresumed : own.resumed = false

theorem Made.of_eq {ctx : Context} {config : Config} {own later : Tracker}
    (h : Made ctx config own) (hctx : later.ctx = own.ctx) (hupload : later.upload = own.upload)
    (hresumed : later.resumed = own.resumed) : Made ctx config later :=
  ⟨hctx.trans h.ctx, hupload.trans h.upload, hresumed.trans h.unresumed⟩

theorem made_new (ctx : Context) (config : Config) : Made ctx config (Tracker.new ctx config) :=
  ⟨rfl, rfl, rfl⟩

section Regular

variable {t : Timeline} {ctx : Context} {config : Config} {seeded : Nat}

/-- A tracker with its leftovers recorded at some time, and no stage touched. -/
structure Ready (t : Timeline) (ctx : Context) (config : Config) (seeded : Nat) (own : Tracker) :
    Prop where
  made : Made ctx config own
  primed : own.progress.Primed t (Tracker.new ctx config).ctx seeded
  seeded : own.progress.Seeded

/-- A tracker that is ready, or will be once it has recorded leftovers at the present time. -/
structure Awaits (t : Timeline) (ctx : Context) (config : Config) (seeded : Nat)
    (s : Session Journal Tracker) : Prop where
  made : Made ctx config s.own
  primed : s.own.progress.Primed t (Tracker.new ctx config).ctx seeded
  seeded : s.own.progress.Seeded ∨ s.clock = seeded ∧ s.own.paused = false

theorem Awaits.seeded_or {s : Session Journal Tracker} (h : Awaits t ctx config seeded s) :
    s.own.progress.Seeded ∨ s.clock = seeded :=
  h.seeded.imp_right And.left

theorem Ready.awaits {s : Session Journal Tracker} (h : Ready t ctx config seeded s.own) :
    Awaits t ctx config seeded s :=
  ⟨h.made, h.primed, Or.inl h.seeded⟩

theorem awaits_start {start : Session Journal Tracker}
    (hstart : start.own = Tracker.new ctx config) : Awaits t ctx config start.clock start := by
  refine ⟨hstart ▸ made_new ctx config, ?_, Or.inr ⟨rfl, hstart ▸ rfl⟩⟩
  rw [hstart]
  exact Progress.primed_fresh t (Tracker.new ctx config).ctx start.clock

/-- A pause leaves alone what a wait is concerned with. -/
theorem keeps_pauseNow (jobCtx : Context) (cluster : Managed) :
    Keeps (fun s => Ready t ctx config seeded s.own) (pauseNow t.client jobCtx cluster) := by
  refine keeps_of_run fun s hs => ?_
  have hprogress := pauseNow_keeps t.client Tracker.progress (fun _ _ => rfl) (fun _ _ => rfl)
    jobCtx cluster s
  refine ⟨hs.made.of_eq ?_ ?_ ?_, hprogress ▸ hs.primed, hprogress ▸ hs.seeded⟩
  · exact pauseNow_keeps t.client Tracker.ctx (fun _ _ => rfl) (fun _ _ => rfl) jobCtx cluster s
  · exact pauseNow_keeps t.client Tracker.upload (fun _ _ => rfl) (fun _ _ => rfl) jobCtx cluster s
  · exact pauseNow_keeps t.client Tracker.resumed (fun _ _ => rfl) (fun _ _ => rfl) jobCtx cluster s

/-- However a pause entry ends, it leaves a tracker that is ready. -/
theorem ends_ensurePaused :
    Ends (Awaits t ctx config seeded) (Tracker.ensurePaused t.client)
      (fun _ s => Ready t ctx config seeded s.own) fun _ s => Ready t ctx config seeded s.own := by
  unfold Tracker.ensurePaused
  refine ends_bind (fun own s => s.own = own ∧ Awaits t ctx config seeded s)
    (ends_own fun _ h => ⟨rfl, h⟩) fun own => ?_
  refine ends_ite (fun hpaused => ends_pure _ ?_) fun _ => ?_
  · rintro s ⟨rfl, h⟩
    refine ⟨h.made, h.primed, h.seeded.resolve_right fun hfresh => ?_⟩
    rw [hfresh.2] at hpaused
    cases hpaused
  refine ends_bind (fun _ s => Ready t ctx config seeded s.own) ?_ fun _ => ?_
  · rintro s ⟨rfl, h⟩
    have hseed := ends_onProgress
      (Progress.ends_seedAll_primed t (Tracker.new ctx config).ctx seeded s.clock)
      (Made ctx config) fun _ _ hmade => hmade.of_eq rfl rfl rfl
    rw [h.made.ctx]
    refine hseed.imp (fun _ h => h) ?_ ?_ s ⟨h.made, h.primed, h.seeded_or, rfl⟩
    · exact fun _ _ h => ⟨h.1, h.2.1, h.2.2.1⟩
    · exact fun _ _ h => h.2.elim
  · exact ends_bind (fun _ s => Ready t ctx config seeded s.own)
      (ends_ofExcept (fun _ _ _ h => h) fun _ _ _ h => h) fun cluster => keeps_pauseNow _ cluster

/-- However often a tracker is asked to pause, it is ready afterwards. -/
theorem ready_of_pausing {start s : Session Journal Tracker}
    (hstart : start.own = Tracker.new ctx config)
    (h : Relation.ReflTransGen (Pausing t.client) (Tracker.ensurePaused t.client start).2 s) :
    Ready t ctx config start.clock s.own := by
  have hcall : ∀ m : Session Journal Tracker, Awaits t ctx config start.clock m →
      Ready t ctx config start.clock (Tracker.ensurePaused t.client m).2.own := by
    intro m hm
    have hend := ends_ensurePaused m hm
    generalize Tracker.ensurePaused t.client m = result at hend
    cases hend with
    | ok hready => exact hready
    | error hready => exact hready
  induction h with
  | refl => exact hcall start (awaits_start hstart)
  | tail _ hstep ih =>
    cases hstep with
    | call => exact hcall _ ih.awaits
    | wait n => exact ih

theorem asks_of_pausing {start s : Session Journal Tracker}
    (h : Relation.ReflTransGen (Pausing t.client) (Tracker.ensurePaused t.client start).2 s) :
    Session.Asks Harmless start s := by
  induction h with
  | refl => exact (asks_ensurePaused t start trivial).1
  | tail _ hstep ih =>
    refine trans_of (Session.Asks Harmless) ih ?_
    cases hstep with
    | call => exact (asks_ensurePaused t _ trivial).1
    | wait n => exact Session.asks_pass _ n

theorem ends_resumeNow (t : Timeline) (cluster : Managed) :
    Ends (fun s => Made ctx config s.own) (resumeNow t.client cluster)
      (fun _ s => s.own.ctx = (Tracker.new ctx config).ctx) fun _ _ => False := by
  intro s hs
  obtain ⟨_, hok⟩ := Orchestrator.succeeds_resume t.grants_client cluster
    (s.focus Tracker.orchestrator)
  have hresult : (resumeNow t.client cluster s).1 = .ok () := (result_marked _ _ s).trans hok
  have hctx := resumeNow_keeps t.client Tracker.ctx (fun _ _ => rfl) (fun _ _ => rfl) cluster s
  rcases hrun : resumeNow t.client cluster s with ⟨f | _, later⟩
  · rw [hrun] at hresult
    cases hresult
  · rw [hrun] at hctx
    exact .ok (hctx.trans hs.ctx)

/-- With a known cluster concluding never fails, and the answer is told by the migration alone. -/
theorem ends_conclude {cluster : Managed} (hcluster : ctx.hostedCluster = some cluster) :
    Ends (fun s => Made ctx config s.own) (conclude t.client)
      (fun action _ => action = if ctx.migration || config.migration then .leftPaused
        else .resumed) fun _ _ => False := by
  have honce : Ends (fun s => Made ctx config s.own) (resumeOnce t.client)
      (fun _ s => s.own.ctx = (Tracker.new ctx config).ctx) fun _ _ => False := by
    unfold resumeOnce
    refine ends_bind (fun own s => s.own = own ∧ Made ctx config s.own)
      (ends_own fun _ h => ⟨rfl, h⟩) fun own => ?_
    refine ends_ite (fun _ => ends_pure _ fun s h => h.2.ctx) fun _ => ?_
    refine ends_ite (fun _ => ends_pure _ fun s h => h.2.ctx) fun _ => ?_
    refine ends_bind (fun _ s => Made ctx config s.own) ?_ fun found => ends_resumeNow t found
    rintro s ⟨rfl, hmade⟩
    have hfound : hostedCluster s.own.ctx = .ok cluster := by
      have hknown : (Tracker.new ctx config).ctx.hostedCluster = some cluster := hcluster
      rw [hmade.ctx, hostedCluster, hknown]
    rw [hfound]
    exact .ok hmade
  refine ends_bind _ honce fun _ => ?_
  refine ends_bind (fun own _ => own.ctx = (Tracker.new ctx config).ctx) (ends_own fun _ h => h)
    fun own => ends_pure _ fun _ hctx => ?_
  rw [finishedAction, hctx]
  rfl

/-- On a regular history the wait of a final call finishes the chain. -/
theorem ends_finalize_wait {s : Session Journal Tracker} (hs : Awaits t ctx config seeded s)
    (hregular : Regular t ctx config.upload seeded s.clock)
    (hfits : Poll.Fits config.upload s.clock) :
    Ending (fun _ later => Made ctx config later.own ∧
        ∀ kind ∈ (Chain.forJob ctx).stages, AllComplete t ctx seeded later.clock kind)
      (fun _ _ => False)
      (onProgress (Progress.wait t.client s.own.ctx s.own.upload) s) := by
  have hregular' : Regular t (Tracker.new ctx config).ctx config.upload seeded s.clock :=
    ⟨hregular.begun, hregular.bounded, hregular.unfailed, hregular.lasting, hregular.complete⟩
  have hwait := ends_onProgress (Progress.ends_wait hregular' hfits) (Made ctx config)
    fun _ _ hmade => hmade.of_eq rfl rfl rfl
  rw [hs.made.ctx, hs.made.upload]
  refine hwait.imp (fun _ h => h) ?_ ?_ s ⟨hs.made, hs.primed, hs.seeded_or, rfl⟩
  · rintro _ later ⟨hmade, hcompleted⟩
    refine ⟨hmade, fun kind hkind => ?_⟩
    have hall := hcompleted.complete kind hkind
    exact ⟨hall.length, hall.completed⟩
  · exact fun _ _ h => h.2

/-- A wait asks for listings only. -/
theorem asks_wait (t : Timeline) (ctx : Context) (settings : Poll.Settings) :
    Moves (Session.Asks Harmless) (onProgress (Progress.wait t.client ctx settings)) := by
  refine asks_onProgress fun s _ => ⟨?_, fun _ _ => trivial⟩
  exact (Progress.leads_wait settings s trivial).1.asks harmless_list

/-- Finalizing waits until all data is complete, and concludes then. -/
theorem finalize_eq_conclude {s : Session Journal Tracker} (hs : Awaits t ctx config seeded s)
    (hregular : Regular t ctx config.upload seeded s.clock)
    (hfits : Poll.Fits config.upload s.clock) :
    ∃ m, Tracker.finalize t.client s = conclude t.client m ∧ Session.Asks Harmless s m ∧
      Made ctx config m.own ∧
      ∀ kind ∈ (Chain.forJob ctx).stages, AllComplete t ctx seeded m.clock kind := by
  have hwait := ends_finalize_wait hs hregular hfits
  have hasks := (asks_wait t s.own.ctx s.own.upload s trivial).1
  unfold Tracker.finalize
  rw [run_bind, run_own]
  simp only
  rw [run_bind]
  generalize onProgress (Progress.wait t.client s.own.ctx s.own.upload) s = result at hwait hasks
  cases hwait with
  | error h => exact h.elim
  | ok h => exact ⟨_, rfl, hasks, h⟩

/-- On a regular history finalizing succeeds, and every write of the value of a resume finds all
data complete. -/
theorem finalize_on_regular_history {cluster : Managed} {start s : Session Journal Tracker}
    (hcluster : ctx.hostedCluster = some cluster) (hstart : start.own = Tracker.new ctx config)
    (hjournal : start.cluster = [])
    (hpausing : s = start ∨
      Relation.ReflTransGen (Pausing t.client) (Tracker.ensurePaused t.client start).2 s)
    (hregular : Regular t ctx config.upload start.clock s.clock)
    (hfits : Poll.Fits config.upload s.clock) :
    (Tracker.finalize t.client s).1 =
      .ok (if ctx.migration || config.migration then .leftPaused else .resumed) ∧
    ∀ clock object observed,
      (clock, .writePause object observed "false") ∈ (Tracker.finalize t.client s).2.cluster →
        ∀ kind ∈ (Chain.forJob ctx).stages, AllComplete t ctx start.clock clock kind := by
  have hawaits : Awaits t ctx config start.clock s := by
    rcases hpausing with rfl | hpausing
    · exact awaits_start hstart
    · exact (ready_of_pausing hstart hpausing).awaits
  have hbefore : Session.Asks Harmless start s := by
    rcases hpausing with rfl | hpausing
    · exact refl_of (Session.Asks Harmless) s
    · exact asks_of_pausing hpausing
  obtain ⟨m, hfinalize, hduring, hmade, hcomplete⟩ :=
    finalize_eq_conclude hawaits hregular hfits
  have hafter := (asks_conclude t m trivial).1
  have hend := ends_conclude (t := t) hcluster m hmade
  rw [hfinalize]
  generalize conclude t.client m = result at hend hafter
  cases hend with
  | error h => exact h.elim
  | ok haction =>
    refine ⟨congrArg Except.ok haction, fun clock object observed hmem kind hkind => ?_⟩
    obtain ⟨old, hold, hharmless⟩ := (trans_of (Session.Asks Harmless) hbefore hduring).journal
    obtain ⟨new, hnew, htime⟩ := hafter.journal
    rw [hjournal, List.nil_append] at hold
    rw [hnew, hold] at hmem
    rcases List.mem_append.mp hmem with hmem | hmem
    · exact absurd rfl ((hharmless _ hmem).2 object observed)
    · exact hregular.allComplete_later hkind hduring.clock (htime _ hmem).1
        (hcomplete kind hkind)

end Regular

def sampleTurns : List Nat := [0, 5000, 25000]

def turnAt (clock : Nat) : Nat :=
  if clock < 5000 then 0 else if clock < 25000 then 5000 else 25000

theorem turnAt_mem (clock : Nat) : turnAt clock ∈ sampleTurns := by
  unfold turnAt
  split
  · decide
  · split <;> decide

theorem turnAt_mono {clock later : Nat} (h : clock ≤ later) : turnAt clock ≤ turnAt later := by
  unfold turnAt
  split_ifs <;> omega

def sampleObject (kind : Kind) (name : String) (ns : Option String) (phase : Phase) : Object :=
  ⟨kind, ⟨name, ns⟩, [], some "clusters-prod", phase, none⟩

/-- There is an upload of an earlier attempt. The new upload is complete before the content that it
comes from. -/
def sampleObjects (turn : Nat) : List Object :=
  let old := sampleObject .dataUpload "nightly-old" (some "openshift-adp") .completed
  let upload := sampleObject .dataUpload "nightly-new" (some "openshift-adp") .completed
  let content := sampleObject .snapshotContent "nightly-content" none
  let snapshot := sampleObject .snapshot "nightly-snapshot" (some "clusters-prod") .completed
  if turn = 0 then [old]
  else if turn = 5000 then [old, upload, content .inProgress]
  else [old, upload, content .completed, snapshot]

theorem distinct_sampleObjects : ∀ turn ∈ sampleTurns,
    ((sampleObjects turn).map fun o => (o.kind, o.identity)).Nodup := by
  decide +kernel

def sampleTimeline : Timeline where
  population clock := ⟨sampleObjects (turnAt clock), distinct_sampleObjects _ (turnAt_mem clock)⟩
  answer _ _
    | .list _ _ => []
    | .readPause _ => ⟨none, none⟩
    | .writePause _ _ _ => ()
    | .nodePools _ => []
    | .controlPlane _ => none
    | .controlPlanesIn _ => []

theorem relevantAt_turnAt (ctx : Context) (seeded clock : Nat) (kind : Kind) :
    relevantAt sampleTimeline ctx seeded clock kind =
      relevantAt sampleTimeline ctx seeded (turnAt clock) kind := by
  have hturns : ∀ turn ∈ sampleTurns, turnAt turn = turn := by decide
  refine relevantAt_congr ?_ ctx seeded kind
  simp only [sampleTimeline, hturns _ (turnAt_mem clock)]

/-- The sample timeline is regular. -/
theorem regular_sampleTimeline :
    Regular sampleTimeline sampleContext Poll.uploadDefaults 0 5000 := by
  have hturns : ∀ kind ∈ Chain.standard.stages, ∀ turn ∈ sampleTurns,
      (relevantAt sampleTimeline sampleContext 0 turn kind).length ≤ 1 ∧
      (∀ o ∈ relevantAt sampleTimeline sampleContext 0 turn kind, o.phase ≠ .failed) ∧
      ∀ later ∈ sampleTurns, turn ≤ later →
        ∀ o ∈ relevantAt sampleTimeline sampleContext 0 turn kind,
          ∃ same ∈ relevantAt sampleTimeline sampleContext 0 later kind,
            same.identity = o.identity ∧ (o.phase = .completed → same.phase = .completed) := by
    decide +kernel
  refine ⟨by decide +kernel, ?_, ?_, ?_, ?_⟩
  · intro kind hkind clock _
    rw [relevantAt_turnAt]
    exact (hturns kind hkind _ (turnAt_mem clock)).1
  · intro kind hkind clock _
    rw [relevantAt_turnAt]
    exact (hturns kind hkind _ (turnAt_mem clock)).2.1
  · intro kind hkind clock later _ hlater
    rw [relevantAt_turnAt, relevantAt_turnAt _ _ later]
    exact (hturns kind hkind _ (turnAt_mem clock)).2.2 _ (turnAt_mem later) (turnAt_mono hlater)
  · have hdone : ∀ kind ∈ Chain.standard.stages, 5000 ≤ 25000 ∧
        (Time.Duration.ofMillis 25000).nanoseconds ≤ Poll.deadline Poll.uploadDefaults 5000 ∧
        (relevantAt sampleTimeline sampleContext 0 25000 kind).countP isComplete =
          sampleContext.expectedUnits := by
      decide +kernel
    exact fun kind hkind => ⟨25000, hdone kind hkind⟩

def timelineStart : Session Journal Tracker :=
  ⟨0, fun _ => 0, [], Tracker.new sampleContext .standard⟩

/-- The workload is paused, and resumed when the content is ready, the last to become so. -/
theorem finalize_on_regular_history_late_content :
    let t := sampleTimeline
    let s := (Tracker.ensurePaused t.client timelineStart).2.pass 5000
    Regular t sampleContext Poll.uploadDefaults 0 s.clock ∧
    Poll.Fits Poll.uploadDefaults s.clock ∧
    (Tracker.finalize t.client s).1 = .ok .resumed ∧
    (25000, .writePause sampleCluster ⟨none, none⟩ "false") ∈
      (Tracker.finalize t.client s).2.cluster ∧
    ∀ clock object observed,
      (clock, .writePause object observed "false") ∈ (Tracker.finalize t.client s).2.cluster →
        ∀ kind ∈ Chain.standard.stages, AllComplete t sampleContext 0 clock kind := by
  intro t s
  have hclock : s.clock = 5000 := by decide +kernel
  have hregular : Regular t sampleContext Poll.uploadDefaults 0 s.clock :=
    hclock ▸ regular_sampleTimeline
  have hfits : Poll.Fits Poll.uploadDefaults s.clock :=
    hclock ▸ ⟨by decide +kernel, by decide +kernel⟩
  have hpausing : Relation.ReflTransGen (Pausing t.client)
      (Tracker.ensurePaused t.client timelineStart).2 s := .single (.wait _ 5000)
  have hcluster : sampleContext.hostedCluster = some sampleCluster := rfl
  have hstart : timelineStart.own = Tracker.new sampleContext .standard := rfl
  obtain ⟨haction, hcomplete⟩ :=
    finalize_on_regular_history hcluster hstart rfl (.inr hpausing) hregular hfits
  exact ⟨hregular, hfits, haction, by decide +kernel, hcomplete⟩

end BackupWatch.Tracker
