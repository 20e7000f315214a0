import BackupWatch.Proofs.Config.Accepted
import BackupWatch.Proofs.Job.Visits
import BackupWatch.Proofs.Pause.Effort
import BackupWatch.Proofs.Retry.Standard
import BackupWatch.Proofs.Tracker.Concluding
import BackupWatch.Proofs.Tracker.Pausing

/-!
A tracker always ends. Pausing and finalizing give a result or an error whatever the client answers,
as long as the paces are positive, the looks can be counted and the delays computed: each poll has
its looks and each update its attempts, and the lists of the cluster bound the rest. The delays can
be computed as long as chance keeps to its range, which no call leaves.
-/

namespace BackupWatch.Tracker

open Act Cluster Job Pause Time Watch

variable {κ : Type}

section Dice

variable {client : Client κ}

/-- Neither seeding nor checks nor waits draw from the dice, so they stay in range. -/
theorem keepsDice_onProgress {α : Type} {act : Act κ Progress α} {ctx : Context}
    (h : Leads (Progress.Path client ctx) (fun _ => True) act fun _ _ => True) :
    Moves (Session.Keeping Session.DiceInRange) (onProgress act) :=
  fun s _ => ⟨(h (s.focus Tracker.progress) trivial).1.diceInRange, fun _ _ => trivial⟩

theorem keepsDice_marked {act : Act κ Orchestrator Unit}
    (h : Moves (Session.Keeping Session.DiceInRange) act) (mark : Tracker → Tracker) :
    Moves (Session.Keeping Session.DiceInRange) (marked act mark) := by
  intro s _
  rw [run_marked]
  exact ⟨(h (s.focus Tracker.orchestrator) trivial).1, fun _ _ => trivial⟩

/-- No call brings the dice out of their range. -/
theorem diceInRange_entry (client : Client κ) (entry : Entry) {s : Session κ Tracker}
    (h : s.DiceInRange) : (entry.run client s).2.DiceInRange := by
  have hpermits : client.Permits (fun _ => True)
      (Session.Keeping Session.DiceInRange : Session κ Orchestrator → _ → Prop) :=
    Session.permits_diceInRange client _
  have hpause : Moves (Session.Keeping Session.DiceInRange) (Tracker.ensurePaused client) := by
    refine moves_ensurePaused_of (fun ctx => ?_) fun ctx cluster => ?_
    · exact keepsDice_onProgress fun s _ =>
        ⟨(Progress.leads_seedAll s.own.chain s rfl).1, fun _ _ => trivial⟩
    · exact keepsDice_marked (Orchestrator.moves_pause hpermits (fun _ _ h => h)
        (fun _ _ => trivial) cluster ctx.controlPlane) _
  have hconclude : Moves (Session.Keeping Session.DiceInRange) (conclude client) := by
    refine moves_conclude_of fun cluster s _ _ => ?_
    exact (keepsDice_marked (Orchestrator.moves_resume hpermits (fun _ _ h => h)
      (fun _ _ => trivial) cluster) _ s trivial).1
  have hcheck : Moves (Session.Keeping Session.DiceInRange) (Tracker.check client) :=
    moves_check_of fun _ => keepsDice_onProgress Progress.leads_pass
  cases entry with
  | execute item =>
    exact (moves_execute_of (fun _ => hpause) (fun _ => moves_executeData_of hcheck hconclude) s
      trivial).1 h
  | ensurePaused => exact (hpause s trivial).1 h
  | check => exact (hcheck s trivial).1 h
  | finalize =>
    have hwait : ∀ ctx settings, Moves (Session.Keeping Session.DiceInRange)
        (onProgress (Progress.wait client ctx settings)) := fun ctx settings =>
      keepsDice_onProgress ((Progress.leads_wait settings).imp (fun _ h => h) fun _ _ _ => trivial)
    exact (moves_finalize_of hwait hconclude s trivial).1 h

end Dice

/-- A tracker whose polls end and whose retries have delays. -/
structure Limited (t : Tracker) : Prop where
  upload : t.upload.Bounded
  propagation : t.orchestrator.propagation.Bounded
  retry : t.orchestrator.retry.Steady

/-- The exchanges of driving the workload of a backup, if it comes to that. -/
inductive Driven (ctx : Context) (looks attempts : Nat) (target : Target) :
    List Exchange → Prop
  | idle : Driven ctx looks attempts target []
  | drive {cluster : Managed} {new : List Exchange} (known : ctx.hostedCluster = some cluster)
      (drive : Drive looks attempts target cluster new) : Driven ctx looks attempts target new

theorem Driven.looks_le {ctx : Context} {looks attempts : Nat} {target : Target}
    {new : List Exchange} (h : Driven ctx looks attempts target new) :
    new.countP (·.request.looksAtPlane) ≤ looks := by
  cases h with
  | idle => exact Nat.zero_le looks
  | drive _ hdrive => exact hdrive.looks_le

/-- A tracker has this context, and its orchestrator its settings, which no call changes. -/
structure SetTo (ctx : Context) (policy : Retry.Policy) (polls : Poll.Settings)
    (s : Session κ Tracker) : Prop where
  ctx : s.own.ctx = ctx
  orchestrator : Orchestrator.SetTo policy polls (s.focus Tracker.orchestrator)

section Driven

variable {ctx : Context} {policy : Retry.Policy} {polls : Poll.Settings}
variable {why : Failure → Session (Chronicle κ) Tracker → Prop}

theorem addsWhile_marked {reason : Failure → Session (Chronicle κ) Orchestrator → Prop}
    {act : Act (Chronicle κ) Orchestrator Unit} {drive : List Exchange → Prop}
    (h : AddsWhile (Orchestrator.SetTo policy polls) reason act (fun _ => drive) drive)
    {mark : Tracker → Tracker} (hmark : ∀ s : Session (Chronicle κ) Tracker,
      SetTo ctx policy polls s → SetTo ctx policy polls { s with own := mark s.own })
    (hwhy : ∀ f (s : Session (Chronicle κ) Tracker) later, reason f later →
      why f (s.unfocus (fun orchestrator t => { t with orchestrator }) later)) :
    AddsWhile (SetTo ctx policy polls) why (marked act mark) (fun _ => drive) drive := by
  have hact : AddsWhile (SetTo ctx policy polls) why (onOrchestrator act) (fun _ => drive) drive :=
    addsWhile_within h (fun _ hs => hs.orchestrator) (fun _ _ hlater hs => ⟨hs.ctx, hlater⟩) hwhy
  refine addsWhile_bind _ hact fun _ => ?_
  refine (adds_bind_quiet (adds_own fun _ => rfl) fun _ => adds_setOwn _ ?_).addsWhile
    fun s hs => hmark s hs
  intro drive hdrive
  rwa [List.append_nil]

theorem addsWhile_liftDiscovery (herror : ∀ f s, f.IsError → why f s)
    {part : List Exchange → Prop} (hpart : part []) :
    AddsWhile (SetTo ctx policy polls) why (liftDiscovery (hostedCluster ctx))
      (fun cluster new => new = [] ∧ ctx.hostedCluster = some cluster) part := by
  refine (adds_ofExcept (fun cluster hok => ⟨rfl, hostedCluster_eq_ok hok⟩)
    fun e _ => ⟨hpart, fun s => herror _ s ⟨e, rfl⟩⟩).addsWhile fun s hs => ?_
  rcases (hostedCluster ctx).mapError DiscoveryFault.toError with e | cluster
  · exact hs
  · exact hs

/-- A pause of a known cluster is driven within the limits of its policy and its poll. -/
theorem addsWhile_pausing (client : Client κ) (hpolicy : policy.Steady) (hpolls : polls.Bounded) :
    AddsWhile (SetTo ctx policy polls) (Poll.Stops polls) (pausing client.recorded ctx)
      (fun _ new => ∃ lists drive, new = lists ++ drive ∧ (∀ e ∈ lists, e.request.isList) ∧
        Driven ctx (Poll.mostLooks polls) policy.attempts .pause drive)
      fun new => ∃ lists drive, new = lists ++ drive ∧ (∀ e ∈ lists, e.request.isList) ∧
        Driven ctx (Poll.mostLooks polls) policy.attempts .pause drive := by
  have hseed : AddsWhile (SetTo ctx policy polls) (Poll.Stops polls)
      (onProgress (Progress.seedAll client.recorded ctx))
      (fun _ new => ∀ e ∈ new, e.request.isList) fun new => ∀ e ∈ new, e.request.isList := by
    refine (adds_onProgress_seedAll client ctx).addsWhile_of_raises ?_ fun s hs => ?_
    · exact fun s f hf =>
        Or.inl (Progress.ends_seedAll_visits.of_error (s := s.focus Tracker.progress) rfl hf).2
    · have hseeded : Progress.Path client.recorded ctx (s.focus Tracker.progress) _ :=
        (Progress.leads_seedAll s.own.progress.chain (s.focus Tracker.progress) rfl).1
      exact ⟨hs.ctx, hseeded.diceInRange hs.orchestrator.dice, hs.orchestrator.retry,
        hs.orchestrator.propagation⟩
  unfold pausing
  refine addsWhile_bind _ (hseed.imp (fun _ _ h => h) fun lists h =>
    ⟨lists, [], (List.append_nil lists).symm, h, .idle⟩) fun _ => ?_
  refine addsWhile_bind _ ((addsWhile_liftDiscovery (fun _ _ h => Or.inl h) rfl).imp
    (fun _ _ h => h) ?_) fun cluster => ?_
  · rintro _ rfl lists hlists
    exact ⟨lists, [], rfl, hlists, .idle⟩
  · have hpause : AddsWhile (SetTo ctx policy polls) (Poll.Stops polls)
        (pauseNow client.recorded ctx cluster)
        (fun _ => Drive (Poll.mostLooks polls) policy.attempts .pause cluster)
        (Drive (Poll.mostLooks polls) policy.attempts .pause cluster) :=
      addsWhile_marked (Orchestrator.addsWhile_pause client hpolicy hpolls cluster ctx.controlPlane)
        (fun _ hs => ⟨hs.ctx, hs.orchestrator⟩) fun _ _ _ h => h
    refine hpause.imp ?_ ?_
    · rintro _ drive hdrive _ ⟨rfl, hcluster⟩ lists hlists
      exact ⟨lists, drive, rfl, hlists, .drive hcluster hdrive⟩
    · rintro drive hdrive _ ⟨rfl, hcluster⟩ lists hlists
      exact ⟨lists, drive, rfl, hlists, .drive hcluster hdrive⟩

/-- Concluding is driven within the limits of the policy, without a look at the plane. -/
theorem addsWhile_conclude (client : Client κ) (hpolicy : policy.Steady) :
    AddsWhile (SetTo ctx policy polls) (fun f _ => f.IsError) (conclude client.recorded)
      (fun _ => Driven ctx 0 policy.attempts .resume)
      (Driven ctx 0 policy.attempts .resume) := by
  have hresume : AddsWhile (SetTo ctx policy polls) (fun f _ => f.IsError)
      (resumeOnce client.recorded) (fun _ => Driven ctx 0 policy.attempts .resume)
      (Driven ctx 0 policy.attempts .resume) := by
    unfold resumeOnce
    refine addsWhile_own_bind fun s hs => ?_
    refine addsWhile_ite (fun _ => addsWhile_pure () .idle) fun _ => ?_
    refine addsWhile_ite (fun _ => addsWhile_pure () .idle) fun _ => ?_
    rw [hs.ctx]
    refine addsWhile_bind _ ((addsWhile_liftDiscovery (fun _ _ h => h) rfl).imp
      (fun _ _ h => h) ?_) fun cluster => ?_
    · rintro _ rfl
      exact .idle
    · have hnow : AddsWhile (SetTo ctx policy polls) (fun f _ => f.IsError)
          (resumeNow client.recorded cluster) (fun _ => Drive 0 policy.attempts .resume cluster)
          (Drive 0 policy.attempts .resume cluster) :=
        addsWhile_marked (Orchestrator.addsWhile_resume client hpolicy cluster)
          (fun _ hs => ⟨hs.ctx, hs.orchestrator⟩) fun _ _ _ h => h
      refine hnow.imp ?_ ?_
      · rintro _ drive hdrive _ ⟨rfl, hcluster⟩
        exact .drive hcluster hdrive
      · rintro drive hdrive _ ⟨rfl, hcluster⟩
        exact .drive hcluster hdrive
  unfold conclude
  refine addsWhile_bind _ hresume fun _ => addsWhile_own_bind fun t _ => addsWhile_pure _ ?_
  intro drive hdrive
  rwa [List.append_nil]

end Driven

/-- How a call that pauses ends: the leftovers are listed, and the workload is driven to a pause. -/
structure PauseEnding (client : Client κ) (s : Session (Chronicle κ) Tracker) : Prop where
  failure : ∀ f, (Tracker.ensurePaused client.recorded s).1 = .error f →
    Poll.Stops s.own.orchestrator.propagation f (Tracker.ensurePaused client.recorded s).2
  history : ∃ lists drive, (Tracker.ensurePaused client.recorded s).2.history =
      s.history ++ (lists ++ drive) ∧ (∀ e ∈ lists, e.request.isList) ∧
    drive.countP (·.request.looksAtPlane) ≤ Poll.mostLooks s.own.orchestrator.propagation ∧
    Driven s.own.ctx (Poll.mostLooks s.own.orchestrator.propagation)
      s.own.orchestrator.retry.attempts .pause drive

/-- A pause entry with dice in range ends, within the limits of a pause. -/
theorem pauseEnding (client : Client κ) {s : Session (Chronicle κ) Tracker} (h : s.own.Limited)
    (hdice : s.DiceInRange) : PauseEnding client s := by
  cases hpaused : s.own.paused with
  | true =>
    have hrun := run_ensurePaused_of_paused client.recorded hpaused
    refine ⟨fun f hf => ?_, [], [], ?_, by simp, Nat.zero_le _, .idle⟩
    · rw [hrun] at hf
      cases hf
    · rw [hrun]
      exact (List.append_nil _).symm
  | false =>
    have hrun : Tracker.ensurePaused client.recorded s = pausing client.recorded s.own.ctx s :=
      run_ensurePaused_of_unpaused client.recorded hpaused
    obtain ⟨⟨_, hnew, lists, drive, rfl, hlists, hdriven⟩, hwhy⟩ :=
      (addsWhile_pausing client h.retry h.propagation).exists_new (s := s)
        ⟨rfl, hdice, rfl, rfl⟩
    rw [← hrun] at hnew hwhy
    exact ⟨hwhy, lists, drive, hnew, hlists, hdriven.looks_le, hdriven⟩

def waited (client : Client κ) (s : Session (Chronicle κ) Tracker) :
    Session (Chronicle κ) Progress :=
  (Progress.wait client.recorded s.own.ctx s.own.upload (s.focus Tracker.progress)).2

/-- How a call that finalizes ends: it waits for all data, and then the workload is driven to a
resume. -/
structure FinalEnding (client : Client κ) (s : Session (Chronicle κ) Tracker) : Prop where
  failure : ∀ f, (Tracker.finalize client.recorded s).1 = .error f →
    Poll.Stops s.own.upload f (Tracker.finalize client.recorded s).2
  checks : ∃ visits, Progress.Visits client.recorded s.own.ctx (s.focus Tracker.progress) visits
      (waited client s) ∧
    ∀ kind, visits.count (.check kind) ≤ Poll.mostLooks s.own.upload
  history : ∃ lists drive, (waited client s).history = s.history ++ lists ∧
      (Tracker.finalize client.recorded s).2.history = s.history ++ (lists ++ drive) ∧
    (∀ e ∈ lists, e.request.isList) ∧
    (∀ kind ns, (lists.map Exchange.request).count (.list kind ns) ≤
      Poll.mostLooks s.own.upload + 1) ∧
    Driven s.own.ctx 0 s.own.orchestrator.retry.attempts .resume drive
  time : client.Prompt → (waited client s).clock ≤ s.clock +
    s.own.progress.chain.stages.length * s.own.upload.timeout.ceilMillis

theorem run_finalize_of_waited (client : Client κ) (s : Session (Chronicle κ) Tracker) :
    Tracker.finalize client.recorded s = match (Progress.wait client.recorded s.own.ctx
        s.own.upload (s.focus Tracker.progress)).1 with
      | .error f => (.error f, withProgress s (waited client s))
      | .ok _ => conclude client.recorded (withProgress s (waited client s)) := by
  rw [run_finalize, onProgress, run_within]
  unfold waited
  rcases (Progress.wait client.recorded s.own.ctx s.own.upload
    (s.focus Tracker.progress)).1 with f | _ <;> rfl

/-- A wait checks each stage no more often than a poll may look, and lists each place at most once
more. -/
theorem exists_waited (client : Client κ) {s : Session (Chronicle κ) Tracker}
    (h : s.own.upload.Bounded) :
    (∃ visits, Progress.Visits client.recorded s.own.ctx (s.focus Tracker.progress) visits
        (waited client s) ∧ ∀ kind, visits.count (.check kind) ≤ Poll.mostLooks s.own.upload) ∧
      ∃ lists, (waited client s).history = s.history ++ lists ∧ (∀ e ∈ lists, e.request.isList) ∧
        ∀ kind ns, (lists.map Exchange.request).count (.list kind ns) ≤
          Poll.mostLooks s.own.upload + 1 := by
  obtain ⟨visits, hvisits, hsublist⟩ : Progress.Within client.recorded s.own.ctx
      (s.focus Tracker.progress) (Progress.visitsOf s.own.upload s.own.progress.chain)
      (waited client s) := Progress.within_wait h (s.focus Tracker.progress)
  obtain ⟨lists, hlists, hall, hcount⟩ := hvisits.accounted
  refine ⟨⟨visits, hvisits, fun kind => ?_⟩, lists, hlists, hall, fun kind ns => ?_⟩
  · exact (hsublist.count_le _).trans (Progress.count_check_visitsOf ..)
  · exact ((hcount kind ns).trans ((hsublist.map Visit.kind).count_le _)).trans
      (Progress.count_kind_visitsOf ..)

theorem clock_waited_le {client : Client κ} (hclient : client.Prompt)
    {s : Session (Chronicle κ) Tracker} (h : s.own.upload.Bounded) :
    (waited client s).clock ≤ s.clock +
      s.own.progress.chain.stages.length * s.own.upload.timeout.ceilMillis := by
  have hrecorded : client.recorded.Prompt :=
    fun request clock chronicle => hclient request clock chronicle.cluster
  exact Progress.clock_wait_le hrecorded h s.own.ctx (s.focus Tracker.progress)

/-- A final entry with dice in range ends, within the limits of the wait and of a resume. -/
theorem finalEnding (client : Client κ) {s : Session (Chronicle κ) Tracker} (h : s.own.Limited)
    (hdice : s.DiceInRange) : FinalEnding client s := by
  obtain ⟨hchecks, lists, hlists, hall, hplaces⟩ := exists_waited client h.upload
  have htime := fun hprompt : client.Prompt => clock_waited_le hprompt h.upload
  have hrun := run_finalize_of_waited client s
  rcases hresult : (Progress.wait client.recorded s.own.ctx s.own.upload
    (s.focus Tracker.progress)).1 with f | _
  · rw [hresult] at hrun
    have hstops : Poll.Stops s.own.upload f (waited client s) :=
      ((Progress.ends_wait_visits h.upload).of_error rfl hresult).2
    refine ⟨fun g hg => ?_, hchecks, ⟨lists, [], hlists, ?_, hall, hplaces, .idle⟩, htime⟩
    · rw [hrun] at hg ⊢
      cases hg
      exact hstops
    · rw [hrun, List.append_nil]
      exact hlists
  · rw [hresult] at hrun
    have hlater : (waited client s).DiceInRange := (Progress.leads_wait s.own.upload
      (s.focus Tracker.progress) trivial).1.diceInRange hdice
    obtain ⟨⟨drive, hdrive, hdriven⟩, hwhy⟩ :=
      (addsWhile_conclude client h.retry).exists_new (s := withProgress s (waited client s))
        ⟨rfl, hlater, rfl, rfl⟩
    refine ⟨fun f hf => ?_, hchecks, ⟨lists, drive, hlists, ?_, hall, hplaces, hdriven⟩, htime⟩
    · rw [hrun] at hf ⊢
      exact Or.inl (hwhy f hf)
    · rw [hrun, ← List.append_assoc]
      exact hdrive.trans (congrArg (· ++ drive) hlists)

/-- Whatever the client answers and chance says, a tracker whose paces are positive, whose looks can
be counted and whose delays can be computed ends both calls in a result or an error, or where the
clock cannot hold a deadline. A pause looks at the control plane no more often than the time-out has
strides, and once; a stride is the pace, or thirty years if that is less. Finalizing checks each
stage no more often than that, lists each place at most once more, and waits no longer than the
time-outs of all stages when requests take no time. Each update makes as many reads, and as many
writes, as there are attempts, at most. -/
theorem calls_end (client : Client κ) {s : Session (Chronicle κ) Tracker} (h : s.own.Limited)
    (hdice : s.DiceInRange) : PauseEnding client s ∧ FinalEnding client s :=
  ⟨pauseEnding client h hdice, finalEnding client h hdice⟩

/-- Whatever accepted configuration a tracker was made with, it has limits if the looks of its polls
can be counted: the paces are positive, and no configuration changes the standard delays. -/
theorem limited_new {settings : Config.Settings} {config : Config}
    (h : Config.ofSettings settings = .ok config) (ctx : Context)
    (hupload : config.upload.timeout.nanoseconds ≤
      (Poll.attemptLimit - 1) * Poll.stride config.upload)
    (hpropagation : config.propagation.timeout.nanoseconds ≤
      (Poll.attemptLimit - 1) * Poll.stride config.propagation) :
    (Tracker.new ctx config).Limited := by
  obtain ⟨v, hwritten, rfl⟩ := Config.ofSettings_eq_ok_iff.mp h
  obtain ⟨hpace, hlook⟩ := hwritten.pace_pos
  exact ⟨Poll.bounded_of_le hpace hupload, Poll.bounded_of_le hlook hpropagation,
    Retry.steady_standard⟩

/-- A cluster that refuses the first write with a conflict, and whose control plane is not there at
the first look and follows at the second. -/
def contended : Client Nat where
  accepts _ := true
  reply request clock turns := match request with
    | .writePause _ _ _ =>
      if turns = 0 then ⟨.error (.api ⟨409, "Conflict", "busy"⟩), 0, 1⟩ else ⟨.ok (), 0, turns⟩
    | .controlPlane _ =>
      ⟨.ok (if turns < 2 then none else some ⟨default, ⟨some "true", none, none⟩⟩), 0, turns + 1⟩
    | .list kind ns => following.reply (.list kind ns) clock turns
    | .readPause object => following.reply (.readPause object) clock turns
    | .nodePools cluster => following.reply (.nodePools cluster) clock turns
    | .controlPlanesIn ns => following.reply (.controlPlanesIn ns) clock turns

def contendedStart : Session (Chronicle Nat) Tracker := { followingStart with dice := fun _ => 1.0 }

/-- With the standard settings, and when chance makes every delay as long as it can, both calls get
over a conflict. -/
theorem calls_end_late_plane :
    contendedStart.own.Limited ∧ contendedStart.DiceInRange ∧
      PauseEnding contended contendedStart ∧ FinalEnding contended contendedStart ∧
      ((Tracker.ensurePaused contended.recorded contendedStart).2.history.map
        Exchange.request).count (.writePause sampleCluster ⟨none, none⟩ "true") = 2 ∧
      (Tracker.ensurePaused contended.recorded contendedStart).1 = .ok () := by
  have haccepted : Config.ofSettings [] = .ok .standard := rfl
  have hlimited : contendedStart.own.Limited :=
    limited_new haccepted _ (by decide) (by decide)
  have hgreatest : (-1.0 : Float) ≤ 1.0 ∧ (1.0 : Float) ≤ 1.0 := by decide +kernel
  have hdice : contendedStart.DiceInRange := fun _ => hgreatest
  obtain ⟨hpause, hfinal⟩ := calls_end contended hlimited hdice
  exact ⟨hlimited, hdice, hpause, hfinal, by decide +kernel, by decide +kernel⟩

/-- A cluster that accepts every write, and whose control plane never follows. -/
def unfollowed : Client Unit where
  accepts _ := true
  reply request _ _ := match request with
    | .list _ _ => ⟨.ok [], 0, ()⟩
    | .readPause _ => ⟨.ok ⟨none, none⟩, 0, ()⟩
    | .writePause _ _ _ => ⟨.ok (), 0, ()⟩
    | .nodePools _ => ⟨.ok [], 0, ()⟩
    | .controlPlane _ => ⟨.ok none, 0, ()⟩
    | .controlPlanesIn _ => ⟨.ok [], 0, ()⟩

/-- A poll whose pace, as long as its time-out, is a millisecond longer than any wait. -/
def sluggish : Poll.Settings := ⟨.ofMillis 946080000001, .ofMillis 946080000001⟩

def sluggishStart : Session (Chronicle Unit) Tracker :=
  ⟨0, fun _ => 0, ⟨(), []⟩, Tracker.new { sampleContext with controlPlane := some samplePlane }
    { Config.standard with propagation := sluggish }⟩

/-- Counted by the pace alone there would be two looks at most, but there are three: a wait ends
after thirty years. -/
theorem looks_exceed_pace :
    sluggishStart.own.Limited ∧ sluggishStart.DiceInRange ∧
      (Duration.ofMillis 1).nanoseconds ≤ sluggish.pace.nanoseconds ∧
      Poll.deadline sluggish 0 < (Duration.ofSeconds Poll.clockEnd).nanoseconds ∧
      sluggish.timeout.nanoseconds ⌈/⌉ sluggish.pace.nanoseconds + 1 ≤ Poll.attemptLimit ∧
      ¬ (Tracker.ensurePaused unfollowed.recorded sluggishStart).2.history.countP
          (·.request.looksAtPlane) ≤
        sluggish.timeout.nanoseconds ⌈/⌉ sluggish.pace.nanoseconds + 1 := by
  have hlooks : (Tracker.ensurePaused unfollowed.recorded sluggishStart).2.history.countP
      (·.request.looksAtPlane) = 3 := by decide +kernel
  have hpaces : sluggish.timeout.nanoseconds ⌈/⌉ sluggish.pace.nanoseconds = 1 := by
    rw [Nat.ceilDiv_eq_add_pred_div]
    decide
  have hlimited : sluggishStart.own.Limited :=
    ⟨Poll.bounded_of_le (by decide) (by decide), Poll.bounded_of_le (by decide) (by decide),
      Retry.steady_standard⟩
  have hzero : (-1.0 : Float) ≤ 0 ∧ (0 : Float) ≤ 1.0 := by decide +kernel
  have hdice : sluggishStart.DiceInRange := fun _ => hzero
  rw [hlooks, hpaces]
  exact ⟨hlimited, hdice, by decide, by decide, by decide, by decide⟩

end BackupWatch.Tracker
