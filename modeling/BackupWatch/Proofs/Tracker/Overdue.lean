import BackupWatch.Proofs.Config.Accepted
import BackupWatch.Proofs.Pause.Partway
import BackupWatch.Proofs.Tracker.Pausing

/-!
Overdue deadlines. An accepted time-out may reach beyond the end of the clock. A tracker with such a
time-out for its control plane stops the program in the middle of a pause, when the hosted cluster
has been paused and nothing has been said to its caller.
-/

namespace BackupWatch

open Act Cluster Job Pause Time Watch

variable {κ : Type}

namespace Pause.Orchestrator

theorem keeps_propagation_bring (client : Client κ) (polls : Poll.Settings) (target : Target)
    (object : Managed) :
    Keeps (fun s => s.own.propagation = polls) (bring client target object) := by
  have hask : ∀ request, Keeps (fun s => s.own.propagation = polls)
      (client.ask request : Act κ Orchestrator request.Answer) := by
    refine fun request => keeps_of_run fun s hs => ?_
    rw [Client.run_ask]
    exact hs
  exact ends_bring_of (fun _ _ hs => hs) (fun _ hs => hs) (hask _) (fun _ _ _ hs => hs)
    (fun field _ => hask (.writePause object field target.value)) (fun _ hs => .ok hs)
    fun _ hs => .ok hs

/-- With a deadline beyond the end of the clock, a pause of a cluster that refuses nothing stops the
program when the hosted cluster has been paused. -/
theorem pause_overdue {client : Client κ} (hclient : client.Grants) (cluster : Managed)
    (plane : Identity) {s : Session (Chronicle κ) Orchestrator}
    (hlate : (Duration.ofSeconds Poll.clockEnd).nanoseconds ≤
      s.own.propagation.timeout.nanoseconds) :
    ∃ new, (pause client.recorded cluster (some plane) s).2.history = s.history ++ new ∧
      (∃ e ∈ new, Shown cluster e) ∧
      (pause client.recorded cluster (some plane) s).1 = .error (.fault .deadlineOutOfRange) := by
  obtain ⟨_, hok⟩ := succeeds_bring hclient.recorded .pause cluster s
  have hadds := adds_bring client .pause cluster s.history s rfl
  have hkeep := (keeps_propagation_bring client.recorded s.own.propagation .pause cluster).run
    (s := s) rfl
  rcases hbring : bring client.recorded .pause cluster s with ⟨f | _, later⟩
  · rw [hbring] at hok
    cases hok
  rw [hbring] at hadds hkeep
  cases hadds with
  | ok hlater =>
    obtain ⟨new, hnew, hreached⟩ := hlater
    have hoverdue : (Duration.ofSeconds Poll.clockEnd).nanoseconds ≤
        Poll.deadline later.own.propagation later.clock := by
      rw [Poll.deadline, show later.own.propagation = s.own.propagation from hkeep]
      exact Nat.le_add_left_of_le hlate
    have hpoll : ∀ operation look, Poll.run later.own.propagation operation look later =
        (.error (.fault .deadlineOutOfRange), later) := by
      intro operation look
      rw [Poll.run_eq, if_pos hoverdue]
    have hawait : awaitPropagation client.recorded (some plane) later =
        (.error (.fault .deadlineOutOfRange), later) :=
      (run_bind_of_ok (run_own later)).trans (run_bind_of_error (hpoll _ _))
    have hpause : pause client.recorded cluster (some plane) s =
        (.error (.fault .deadlineOutOfRange), later) :=
      (run_bind_of_ok hbring).trans (run_bind_of_error hawait)
    rw [hpause]
    exact ⟨new, hnew, hreached.exists_shown, rfl⟩

end Pause.Orchestrator

namespace Tracker

/-- With a timeout too long to add to the clock the pause panics, and the cluster is paused by then.
-/
theorem ensurePaused_overdue {client : Client κ} (hclient : client.Grants)
    {s : Session (Chronicle κ) Tracker} {cluster : Managed} {plane : Identity}
    (hunpaused : s.own.paused = false) (hcluster : s.own.ctx.hostedCluster = some cluster)
    (hplane : s.own.ctx.controlPlane = some plane)
    (hlate : (Duration.ofSeconds Poll.clockEnd).nanoseconds ≤
      s.own.orchestrator.propagation.timeout.nanoseconds) :
    (Tracker.ensurePaused client.recorded s).1 = .error (.fault .deadlineOutOfRange) ∧
      ∃ new, (Tracker.ensurePaused client.recorded s).2.history = s.history ++ new ∧
        ∃ e ∈ new, Shown cluster e := by
  have hok : ∃ a, (onProgress (Progress.seedAll client.recorded s.own.ctx) s).1 = .ok a :=
    Progress.succeeds_seedAll hclient.recorded s.own.ctx (s.focus Tracker.progress)
  have hkeep : (onProgress (Progress.seedAll client.recorded s.own.ctx) s).2.own.orchestrator =
      s.own.orchestrator := rfl
  have hlists := adds_onProgress_seedAll client s.own.ctx s.history s rfl
  rw [run_ensurePaused_of_unpaused client.recorded hunpaused]
  unfold pausing
  rw [run_bind]
  generalize onProgress (Progress.seedAll client.recorded s.own.ctx) s = result at hok hkeep hlists
  cases hlists with
  | error _ =>
    obtain ⟨_, hok⟩ := hok
    cases hok
  | @ok _ later hlater =>
    obtain ⟨lists, hnew, _⟩ := hlater
    have hnow : (liftDiscovery (hostedCluster s.own.ctx) >>=
        pauseNow client.recorded s.own.ctx) later =
          pauseNow client.recorded s.own.ctx cluster later := by
      rw [run_bind, hostedCluster, hcluster]
      rfl
    obtain ⟨course, hcourse, ⟨e, he, hshown⟩, hfault⟩ :=
      Orchestrator.pause_overdue hclient cluster plane (s := later.focus Tracker.orchestrator)
        (hlate.trans (Nat.le_of_eq (by rw [← hkeep]; rfl)))
    rw [← hplane] at hcourse hfault
    simp only [hnow]
    refine ⟨(result_marked ..).trans hfault, lists ++ course, ?_, e,
      List.mem_append_right lists he, hshown⟩
    rw [← List.append_assoc, ← hnew]
    exact (history_marked ..).trans hcourse

/-- An accepted configuration has positive paces, and as its upload time-out just the minutes that
were written for it. Either poll stops the program at its start if its deadline lies beyond the end
of the clock, and in no other case; no time-out is refused for it. With such a time-out for the
control plane the first pause, on a cluster that refuses nothing, stops the program when the hosted
cluster has been paused. -/
theorem accepted_config_may_be_overdue {settings : Config.Settings} {config : Config}
    (h : Config.ofSettings settings = .ok config) :
    (0 < config.upload.pace.nanoseconds ∧ 0 < config.propagation.pace.nanoseconds) ∧
    (∃ minutes, Config.value? settings .uploadTimeout Numeral.unsigned = .ok minutes ∧
      (minutes = none → config.upload.timeout = .ofSeconds 1800) ∧
      ∀ n, minutes = some n → config.upload.timeout = .ofSeconds (n * 60)) ∧
    (∀ settings ∈ [config.upload, config.propagation], ∀ {κ σ : Type} (operation : String)
      (look : Act κ σ Poll.Status) (s : Session κ σ),
      (Raises look fun f _ => f ≠ .fault .deadlineOutOfRange) →
        ((Poll.run settings operation look s).1 = .error (.fault .deadlineOutOfRange) ↔
          (Duration.ofSeconds Poll.clockEnd).nanoseconds ≤ Poll.deadline settings s.clock)) ∧
    ∀ {κ : Type} (client : Client κ) (ctx : Context) (s : Session (Chronicle κ) Tracker)
      (cluster : Managed) (plane : Identity), client.Grants → s.own = Tracker.new ctx config →
      ctx.hostedCluster = some cluster → ctx.controlPlane = some plane →
      (Duration.ofSeconds Poll.clockEnd).nanoseconds ≤ config.propagation.timeout.nanoseconds →
        (Tracker.ensurePaused client.recorded s).1 = .error (.fault .deadlineOutOfRange) ∧
          ∃ new, (Tracker.ensurePaused client.recorded s).2.history = s.history ++ new ∧
            ∃ e ∈ new, Shown cluster e := by
  obtain ⟨v, hwritten, rfl⟩ := Config.ofSettings_eq_ok_iff.mp h
  refine ⟨hwritten.pace_pos, ⟨v.minutes, hwritten.minutes, ?_, ?_⟩, ?_, ?_⟩
  · intro hnone
    simp [Config.Values.config, hnone]
  · intro n hsome
    simp [Config.Values.config, hsome]
  · exact fun settings _ _ _ operation look s hlook =>
      Poll.run_overdue_iff settings operation hlook s
  · intro κ client ctx s cluster plane hclient hown hcluster hplane hlate
    exact ensurePaused_overdue hclient (by rw [hown]; rfl) (by rw [hown]; exact hcluster)
      (by rw [hown]; exact hplane) (by rw [hown]; exact hlate)

def overdueSettings : Config.Settings := [("propagationTimeout", "9223372036854775808")]

def overdueValues : Config.Values := ⟨none, none, some 9223372036854775808, none⟩

def overdueStart : Session (Chronicle Nat) Tracker :=
  ⟨0, fun _ => 0, ⟨0, []⟩, Tracker.new { sampleContext with controlPlane := some samplePlane }
    overdueValues.config⟩

/-- A time-out of 2^63 seconds is accepted, and stops the pause of a cluster that refuses
nothing. -/
theorem accepted_config_may_be_overdue_at_power :
    Config.ofSettings overdueSettings = .ok overdueValues.config ∧
      (Tracker.ensurePaused following.recorded overdueStart).1 =
        .error (.fault .deadlineOutOfRange) := by
  have haccepted : Config.ofSettings overdueSettings = .ok overdueValues.config :=
    Config.ofSettings_of_written ⟨by decide +kernel, by decide +kernel, by decide +kernel,
      by decide +kernel, by decide, by decide⟩
  have hgrants : following.Grants := by
    refine ⟨fun _ => rfl, fun request _ _ => ?_⟩
    cases request <;> exact ⟨_, rfl⟩
  have hown : overdueStart.own = Tracker.new
      { sampleContext with controlPlane := some samplePlane } overdueValues.config := rfl
  have hfault := (accepted_config_may_be_overdue haccepted).2.2.2 following _ overdueStart
    sampleCluster samplePlane hgrants hown rfl rfl (by decide)
  exact ⟨haccepted, hfault.1⟩

end Tracker
end BackupWatch
