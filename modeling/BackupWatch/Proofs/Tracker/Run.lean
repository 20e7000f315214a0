import BackupWatch.Tracker
import BackupWatch.Proofs.Job.Finish
import BackupWatch.Proofs.Pause.Requests

/-!
Runs of a tracker: its entry points are called in any order, and between two calls the clock and
the cluster may change at will. Every call is a path of small steps, each with the condition
under which the tracker takes it; a call that fails ends somewhere on such a path.
-/

namespace BackupWatch.Tracker

open Act Cluster Job Pause Watch

variable {κ α : Type}

inductive Entry
  | execute (item : Item)
  | ensurePaused
  | check
  | finalize

namespace Entry

abbrev Answer : Entry → Type
  | execute _ => ItemAction
  | ensurePaused => Unit
  | check => List Outcome
  | finalize => ItemAction

def run (client : Client κ) : (entry : Entry) → Act κ Tracker entry.Answer
  | execute item => Tracker.execute client item
  | ensurePaused => Tracker.ensurePaused client
  | check => Tracker.check client
  | finalize => Tracker.finalize client

end Entry

inductive Turn (client : Client κ) :
    Session (Chronicle κ) Tracker → Session (Chronicle κ) Tracker → Prop
  | call (entry : Entry) (s : Session (Chronicle κ) Tracker) :
      Turn client s (entry.run client.recorded s).2
  | idle {s later : Session (Chronicle κ) Tracker} (own : later.own = s.own)
      (history : later.history = s.history) : Turn client s later

abbrev Run (client : Client κ) :
    Session (Chronicle κ) Tracker → Session (Chronicle κ) Tracker → Prop :=
  Relation.ReflTransGen (Turn client)

/-- An act on the orchestrator, and a mark that it has succeeded. -/
def marked (act : Act κ Orchestrator Unit) (mark : Tracker → Tracker) : Act κ Tracker Unit := do
  onOrchestrator act
  Act.setOwn (mark (← Act.own))

def pauseNow (client : Client κ) (ctx : Context) (cluster : Managed) : Act κ Tracker Unit :=
  marked (Orchestrator.pause client cluster ctx.controlPlane) fun t => { t with paused := true }

def resumeNow (client : Client κ) (cluster : Managed) : Act κ Tracker Unit :=
  marked (Orchestrator.resume client cluster) fun t => { t with resumed := true }

theorem run_marked (act : Act κ Orchestrator Unit) (mark : Tracker → Tracker)
    (s : Session κ Tracker) :
    marked act mark s =
      let (result, inner) := act (s.focus Tracker.orchestrator)
      let t : Tracker := { s.own with orchestrator := inner.own }
      (result, { inner with own := match result with
        | .ok _ => mark t
        | .error _ => t }) := by
  unfold marked
  rw [run_bind]
  simp only [onOrchestrator, run_within]
  rcases act (s.focus Tracker.orchestrator) with ⟨_ | _, _⟩ <;> rfl

theorem result_marked (act : Act κ Orchestrator Unit) (mark : Tracker → Tracker)
    (s : Session κ Tracker) :
    (marked act mark s).1 = (act (s.focus Tracker.orchestrator)).1 := by
  rw [run_marked]
  rfl

theorem history_marked (act : Act (Chronicle κ) Orchestrator Unit) (mark : Tracker → Tracker)
    (s : Session (Chronicle κ) Tracker) :
    (marked act mark s).2.history = (act (s.focus Tracker.orchestrator)).2.history := by
  rw [run_marked]
  rfl

/-- Apart from the orchestrator only the mark is made. -/
theorem marked_keeps {act : Act κ Orchestrator Unit} {mark : Tracker → Tracker}
    (part : Tracker → α) (hmark : ∀ t, part (mark t) = part t)
    (horchestrator : ∀ t orchestrator, part { t with orchestrator } = part t)
    (s : Session κ Tracker) : part (marked act mark s).2.own = part s.own := by
  rw [run_marked]
  rcases act (s.focus Tracker.orchestrator) with ⟨_ | _, inner⟩
  · exact horchestrator s.own inner.own
  · exact (hmark _).trans (horchestrator s.own inner.own)

theorem own_marked_of_error {act : Act κ Orchestrator Unit} {mark : Tracker → Tracker}
    {s : Session κ Tracker} {e : Failure} (h : (marked act mark s).1 = .error e) :
    (marked act mark s).2.own =
      { s.own with orchestrator := (act (s.focus Tracker.orchestrator)).2.own } := by
  rw [run_marked] at h ⊢
  rcases hact : act (s.focus Tracker.orchestrator) with ⟨_ | _, inner⟩
  · rfl
  · rw [hact] at h
    cases h

theorem own_marked_of_ok {act : Act κ Orchestrator Unit} {mark : Tracker → Tracker}
    {s : Session κ Tracker} (h : (marked act mark s).1 = .ok ()) :
    (marked act mark s).2.own =
      mark { s.own with orchestrator := (act (s.focus Tracker.orchestrator)).2.own } := by
  rw [run_marked] at h ⊢
  rcases hact : act (s.focus Tracker.orchestrator) with ⟨_ | _, inner⟩
  · rw [hact] at h
    cases h
  · rfl

/-- A tracker pauses a hosted cluster only once, after it has recorded all leftovers. -/
structure MayPause (t : Tracker) (cluster : Managed) : Prop where
  unpaused : t.paused = false
  seeded : t.progress.Seeded
  cluster : t.ctx.hostedCluster = some cluster

/-- A tracker resumes a hosted cluster only once, after all stages have finished, and never for
a migration. -/
structure MayResume (t : Tracker) (cluster : Managed) : Prop where
  finished : t.progress.finished = true
  migration : t.ctx.migration = false
  unresumed : t.resumed = false
  cluster : t.ctx.hostedCluster = some cluster

abbrev withProgress (s : Session κ Tracker) (inner : Session κ Progress) : Session κ Tracker :=
  s.unfocus (fun progress t => { t with progress }) inner

inductive Step (client : Client κ) :
    Session (Chronicle κ) Tracker → Session (Chronicle κ) Tracker → Prop
  | idle {s later : Session (Chronicle κ) Tracker} (own : later.own = s.own)
      (history : later.history = s.history) : Step client s later
  | progress {s : Session (Chronicle κ) Tracker} {inner : Session (Chronicle κ) Progress}
      (h : Progress.Step client.recorded s.own.ctx (s.focus Tracker.progress) inner) :
      Step client s (withProgress s inner)
  | pause {s : Session (Chronicle κ) Tracker} {cluster : Managed} (h : s.own.MayPause cluster) :
      Step client s (pauseNow client.recorded s.own.ctx cluster s).2
  | resume {s : Session (Chronicle κ) Tracker} {cluster : Managed} (h : s.own.MayResume cluster) :
      Step client s (resumeNow client.recorded cluster s).2

abbrev Path (client : Client κ) :
    Session (Chronicle κ) Tracker → Session (Chronicle κ) Tracker → Prop :=
  Relation.ReflTransGen (Step client)

variable {client : Client κ}

instance : IsPreorder (Session (Chronicle κ) Tracker) (Path client) where

/-- What the progress does along its path the tracker around it does along one. -/
theorem Path.ofProgress {s : Session (Chronicle κ) Tracker} {inner : Session (Chronicle κ) Progress}
    (h : Progress.Path client.recorded s.own.ctx (s.focus Tracker.progress) inner) :
    Path client s (withProgress s inner) := by
  induction h with
  | refl => exact .refl
  | @tail middle inner _ hstep ih =>
    have hnext : Step client (withProgress s middle) (withProgress (withProgress s middle) inner) :=
      .progress hstep
    exact ih.tail hnext

/-- An act on the progress leaves alone what does not depend on the progress. -/
theorem leads_onProgress (client : Client κ) {ctx : Context}
    {pre : Session (Chronicle κ) Progress → Prop}
    {post : α → Session (Chronicle κ) Progress → Prop} {act : Act (Chronicle κ) Progress α}
    (frame : Tracker → Prop) (hctx : ∀ t, frame t → t.ctx = ctx)
    (hframe : ∀ t progress, frame t → frame { t with progress })
    (hact : Leads (Progress.Path client.recorded ctx) pre act post) :
    Leads (Path client) (fun s => frame s.own ∧ pre (s.focus Tracker.progress)) (onProgress act)
      fun a s => frame s.own ∧ post a (s.focus Tracker.progress) := by
  intro s hs
  obtain ⟨hmove, hresult⟩ := hact (s.focus Tracker.progress) hs.2
  rw [← hctx s.own hs.1] at hmove
  refine ⟨.ofProgress hmove, ?_⟩
  intro a ha
  exact ⟨hframe s.own _ hs.1, hresult a ha⟩

theorem leads_liftDiscovery {R : Session κ Tracker → Session κ Tracker → Prop}
    [IsPreorder (Session κ Tracker) R] {pre : Session κ Tracker → Prop} {ctx : Context}
    (hctx : ∀ s, pre s → s.own.ctx = ctx) :
    Leads R pre (liftDiscovery (hostedCluster ctx))
      fun cluster s => pre s ∧ s.own.ctx.hostedCluster = some cluster := by
  refine leads_ofExcept fun cluster s hok hs => ⟨hs, ?_⟩
  unfold hostedCluster at hok
  rw [hctx s hs]
  cases hcluster : ctx.hostedCluster with
  | none =>
    rw [hcluster] at hok
    cases hok
  | some found =>
    rw [hcluster] at hok
    cases hok
    rfl

/-- A pause entry leads along a path. -/
theorem leads_ensurePaused :
    Leads (Path client) (fun _ => True) (Tracker.ensurePaused client.recorded)
      fun _ _ => True := by
  unfold Tracker.ensurePaused
  refine leads_bind (fun t s => s.own = t) (leads_own fun _ _ => rfl) fun t => ?_
  refine leads_ite (fun _ => leads_pure _ fun _ _ => trivial) fun hpaused => ?_
  have hseed := leads_onProgress client
    (fun own => own.ctx = t.ctx ∧ own.paused = false) (fun _ h => h.1) (fun _ _ h => h)
    (Progress.leads_seedAll t.progress.chain)
  refine leads_bind _ (hseed.imp ?_ fun _ _ h => h) fun _ => ?_
  · rintro s rfl
    exact ⟨⟨rfl, by simpa using hpaused⟩, rfl⟩
  refine leads_bind _ (leads_liftDiscovery fun s hs => hs.1.1) fun cluster => ?_
  intro s hs
  obtain ⟨⟨⟨hctx, hunpaused⟩, _, hseeded⟩, hcluster⟩ := hs
  have hstep : Step client s (pauseNow client.recorded s.own.ctx cluster s).2 :=
    .pause ⟨hunpaused, hseeded, hcluster⟩
  rw [hctx] at hstep
  exact ⟨.single hstep, fun _ _ => trivial⟩

/-- With a finished chain a resume leads along a path and leaves the workload resumed. -/
theorem leads_resumeOnce :
    Leads (Path client) (fun s => s.own.progress.finished = true)
      (resumeOnce client.recorded)
      fun _ s => s.own.progress.finished = true ∧
        (s.own.ctx.migration = false → s.own.resumed = true) := by
  unfold resumeOnce
  refine leads_bind (fun t s => s.own = t ∧ t.progress.finished = true)
    (leads_own fun _ h => ⟨rfl, h⟩) fun t => ?_
  refine leads_ite (fun hresumed => leads_pure _ ?_) fun hresumed => ?_
  · rintro s ⟨rfl, hfinished⟩
    exact ⟨hfinished, fun _ => hresumed⟩
  refine leads_ite (fun hmigration => leads_pure _ ?_) fun hmigration => ?_
  · rintro s ⟨rfl, hfinished⟩
    exact ⟨hfinished, fun hnot => absurd hmigration (by simp [hnot])⟩
  refine leads_bind _ (leads_liftDiscovery fun s hs => hs.1 ▸ rfl) fun cluster => ?_
  rintro s ⟨⟨rfl, hfinished⟩, hcluster⟩
  have hstep : Step client s (resumeNow client.recorded cluster s).2 :=
    .resume ⟨hfinished, by simpa using hmigration, by simpa using hresumed, hcluster⟩
  refine ⟨.single hstep, ?_⟩
  intro () hok
  have hown : (resumeNow client.recorded cluster s).2.own = _ := own_marked_of_ok hok
  change (resumeNow client.recorded cluster s).2.own.progress.finished = true ∧
    (_ → (resumeNow client.recorded cluster s).2.own.resumed = true)
  rw [hown]
  exact ⟨hfinished, fun _ => rfl⟩

/-- What holds once the workload is said to have been resumed. -/
def Resumed (s : Session κ Tracker) : Prop :=
  s.own.progress.finished = true ∧ s.own.resumed = true

/-- Concluding a finished chain leads along a path, and `resumed` is said of a resumed tracker. -/
theorem leads_conclude :
    Leads (Path client) (fun s => s.own.progress.finished = true) (conclude client.recorded)
      fun action s => action = .resumed → Resumed s := by
  unfold conclude
  refine leads_bind _ leads_resumeOnce fun _ => ?_
  refine leads_bind (fun t s => s.own = t ∧ t.progress.finished = true ∧
    (t.ctx.migration = false → t.resumed = true)) (leads_own fun _ h => ⟨rfl, h⟩) fun t => ?_
  refine leads_pure _ ?_
  rintro s ⟨rfl, hfinished, hresumed⟩ haction
  refine ⟨hfinished, hresumed ?_⟩
  unfold finishedAction at haction
  split at haction
  · cases haction
  · next h => simpa using h

/-- A check leads along a path. -/
theorem leads_check :
    Leads (Path client) (fun _ => True) (Tracker.check client.recorded) fun _ _ => True := by
  unfold Tracker.check
  refine leads_bind (fun t s => s.own = t) (leads_own fun _ _ => rfl) fun t => ?_
  refine (leads_onProgress client (fun own => own.ctx = t.ctx) (fun _ h => h) (fun _ _ h => h)
    Progress.leads_pass).imp ?_ fun _ _ _ => trivial
  rintro s rfl
  exact ⟨rfl, trivial⟩

theorem leads_executeData :
    Leads (Path client) (fun _ => True) (executeData client.recorded)
      fun action s => action = .resumed → Resumed s := by
  have hconclude : ∀ t : Tracker, ¬ (!t.isFinished) = true →
      Leads (Path client) (fun s => s.own = t) (conclude client.recorded)
        fun action s => action = .resumed → Resumed s := by
    intro t hfinished
    refine leads_conclude.imp ?_ fun _ _ h => h
    rintro s rfl
    simpa [isFinished] using hfinished
  unfold executeData
  refine leads_bind (fun t s => s.own = t) (leads_own fun _ _ => rfl) fun t => ?_
  refine leads_ite (fun _ => ?_) (hconclude t)
  refine leads_bind _ (leads_check.imp (fun _ _ => trivial) fun _ _ h => h) fun _ => ?_
  refine leads_bind (fun t s => s.own = t) (leads_own fun _ _ => rfl) fun t => ?_
  exact leads_ite (fun _ => leads_pure _ fun _ _ h => by cases h) (hconclude t)

theorem leads_execute (item : Item) :
    Leads (Path client) (fun _ => True) (Tracker.execute client.recorded item)
      fun action s => action = .resumed → Resumed s := by
  unfold Tracker.execute
  refine leads_ite (fun _ => ?_) fun _ => ?_
  · exact leads_bind _ leads_ensurePaused fun _ => leads_pure _ fun _ _ h => by cases h
  · refine leads_bind (fun _ _ => True) (leads_own fun _ _ => trivial) fun t => ?_
    exact leads_ite (fun _ => leads_pure _ fun _ _ h => by cases h) fun _ => leads_executeData

theorem leads_finalize :
    Leads (Path client) (fun _ => True) (Tracker.finalize client.recorded)
      fun action s => action = .resumed → Resumed s := by
  unfold Tracker.finalize
  refine leads_bind (fun t s => s.own = t) (leads_own fun _ _ => rfl) fun t => ?_
  have hwait := leads_onProgress client (fun own => own.ctx = t.ctx) (fun _ h => h)
    (fun _ _ h => h) (Progress.leads_wait t.upload)
  refine leads_bind _ (hwait.imp ?_ fun _ _ h => h) fun _ =>
    leads_conclude.imp (fun _ h => h.2) fun _ _ h => h
  rintro s rfl
  exact ⟨rfl, trivial⟩

def Entry.saysResumed : (entry : Entry) → entry.Answer → Prop
  | execute _, action => action = .resumed
  | ensurePaused, _ => False
  | check, _ => False
  | finalize, action => action = .resumed

/-- Every entry leads along a path, and whoever says `resumed` has resumed. -/
theorem leads_entry (client : Client κ) (entry : Entry) :
    Leads (Path client) (fun _ => True) (entry.run client.recorded)
      fun answer s => entry.saysResumed answer → Resumed s := by
  cases entry with
  | execute item => exact leads_execute item
  | ensurePaused => exact leads_ensurePaused.imp (fun _ h => h) fun _ _ _ h => h.elim
  | check => exact leads_check.imp (fun _ h => h) fun _ _ _ h => h.elim
  | finalize => exact leads_finalize

/-- By induction over the calls, a run is a path. -/
theorem Run.path {s later : Session (Chronicle κ) Tracker} (h : Run client s later) :
    Path client s later := by
  induction h with
  | refl => exact .refl
  | tail _ hturn ih =>
    cases hturn with
    | call entry => exact ih.trans (leads_entry client entry _ trivial).1
    | idle hown hhistory => exact ih.tail (.idle hown hhistory)

end BackupWatch.Tracker
