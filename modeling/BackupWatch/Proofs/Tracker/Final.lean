import BackupWatch.Proofs.Tracker.Calls
import BackupWatch.Proofs.Tracker.Obliging
import Mathlib.Tactic.ByContra

/-!
When a resume is final. A tracker keeps two marks, that it has paused and that it has resumed.
If the first stood before the second was made, no later call pauses again and the hosted cluster
is reported as it is; otherwise the next item of the control plane pauses a workload that the
tracker goes on to report as resumed.
-/

namespace BackupWatch.Tracker

open Act Cluster Job Pause Watch

variable {κ α : Type}

/-- A tracker with its resume mark knows the hosted cluster as resumed. -/
def ShowsResumed (t : Tracker) : Prop :=
  ∀ cluster, t.ctx.hostedCluster = some cluster → t.orchestrator.stateOf cluster = .resumed

def Same (part : Tracker → α) (s later : Session κ Tracker) : Prop :=
  part later.own = part s.own

instance (part : Tracker → α) : IsPreorder (Session κ Tracker) (Same part) where
  refl _ := rfl
  trans _ _ _ hab hbc := Eq.trans hbc hab

/-- The pause mark stays the same, and the resume mark is made with the hosted cluster resumed. -/
structure Resuming (s later : Session κ Tracker) : Prop where
  paused : later.own.paused = s.own.paused
  shows : (s.own.resumed = true → s.own.ShowsResumed) →
    later.own.resumed = true → later.own.ShowsResumed

instance : IsPreorder (Session κ Tracker) Resuming where
  refl _ := ⟨rfl, id⟩
  trans _ _ _ hab hbc := ⟨hbc.paused.trans hab.paused, hbc.shows ∘ hab.shows⟩

theorem moves_ensurePaused (client : Client κ) :
    Moves (Same Tracker.resumed) (Tracker.ensurePaused client) :=
  moves_ensurePaused_of (fun _ _ _ => ⟨rfl, fun _ _ => trivial⟩) fun ctx cluster s _ =>
    ⟨pauseNow_keeps client Tracker.resumed (fun _ _ => rfl) (fun _ _ => rfl) ctx cluster s,
      fun _ _ => trivial⟩

/-- Acts on the progress touch none of the marks, and not the orchestrator. -/
theorem moves_onProgress (act : Act κ Progress α) : Moves Resuming (onProgress act) := by
  intro s _
  exact ⟨⟨rfl, id⟩, fun _ _ => trivial⟩

/-- A resume call resumes, or leaves the tracker unresumed. -/
theorem resuming_resumeNow {client : Client κ} {cluster : Managed} {s : Session κ Tracker}
    (hunresumed : s.own.resumed = false) (hcluster : s.own.ctx.hostedCluster = some cluster) :
    Resuming s (resumeNow client cluster s).2 := by
  refine ⟨resumeNow_keeps client Tracker.paused (fun _ _ => rfl) (fun _ _ => rfl) cluster s, ?_⟩
  intro _ hresumed
  rcases hok : (resumeNow client cluster s).1 with e | _
  · have hown : (resumeNow client cluster s).2.own = _ := own_marked_of_error hok
    rw [hown] at hresumed
    rw [hunresumed] at hresumed
    cases hresumed
  · have hown : (resumeNow client cluster s).2.own = _ := own_marked_of_ok hok
    have hresume := (result_marked _ _ s).symm.trans hok
    intro other hother
    rw [hown] at hother ⊢
    have hsame : cluster = other := Option.some.inj (hcluster.symm.trans hother)
    exact hsame ▸ Orchestrator.stateOf_resume client hresume

theorem moves_conclude (client : Client κ) : Moves Resuming (conclude client) :=
  moves_conclude_of fun _ _ => resuming_resumeNow

theorem moves_check (client : Client κ) : Moves Resuming (Tracker.check client) :=
  moves_check_of fun _ => moves_onProgress _

theorem moves_executeData (client : Client κ) : Moves Resuming (executeData client) :=
  moves_executeData_of (moves_check client) (moves_conclude client)

theorem moves_finalize (client : Client κ) : Moves Resuming (Tracker.finalize client) :=
  moves_finalize_of (fun _ _ => moves_onProgress _) (moves_conclude client)

/-- A call leaves the resume mark alone or the pause mark. -/
theorem same_or_resuming (client : Client κ) (entry : Entry) (s : Session κ Tracker) :
    Same Tracker.resumed s (entry.run client s).2 ∨ Resuming s (entry.run client s).2 := by
  cases entry with
  | execute item =>
    by_cases hplane : item.isControlPlane = true
    · exact Or.inl (moves_execute_of (fun _ => moves_ensurePaused client)
        (fun hdata => absurd hplane hdata) s trivial).1
    · exact Or.inr (moves_execute_of (fun hpause => absurd hpause hplane)
        (fun _ => moves_executeData client) s trivial).1
  | ensurePaused => exact Or.inl (moves_ensurePaused client s trivial).1
  | check => exact Or.inr (moves_check client s trivial).1
  | finalize => exact Or.inr (moves_finalize client s trivial).1

/-- From a session on nothing is paused again, and whoever is told that the workload was resumed
finds the hosted cluster so. -/
structure Final (client : Client κ) (now : Session (Chronicle κ) Tracker) : Prop where
  unpaused : ∀ later, Run client now later → ∀ new, later.history = now.history ++ new →
    ∀ object observed result, ⟨.writePause object observed "true", result⟩ ∉ new
  resumed : ∀ later, Run client now later → ∀ (entry : Entry) (answer : entry.Answer),
    (entry.run client.recorded later).1 = .ok answer → entry.saysResumed answer →
      (entry.run client.recorded later).2.own.ShowsResumed

/-- With both marks made only progress is left. -/
theorem Step.quiet {client : Client κ} {s later : Session (Chronicle κ) Tracker}
    (h : Step client s later) (hpaused : s.own.paused = true) (hresumed : s.own.resumed = true) :
    later.own.orchestrator = s.own.orchestrator ∧
      Session.Sends (fun e => e.request.isList) s later := by
  cases h with
  | idle hown hhistory => exact ⟨by rw [hown], .of_history_eq hhistory⟩
  | progress hstep => exact ⟨rfl, hstep.sends_lists⟩
  | pause hmay =>
    rw [hmay.unpaused] at hpaused
    cases hpaused
  | resume hmay =>
    rw [hmay.unresumed] at hresumed
    cases hresumed

/-- Paused and resumed, a tracker asks only for listings and leaves its orchestrator alone. -/
theorem Path.quiet {client : Client κ} {s later : Session (Chronicle κ) Tracker}
    (h : Path client s later) (hpaused : s.own.paused = true) (hresumed : s.own.resumed = true) :
    later.own.orchestrator = s.own.orchestrator ∧
      Session.Sends (fun e => e.request.isList) s later := by
  induction h with
  | refl => exact ⟨rfl, refl_of (Session.Sends _) s⟩
  | @tail c d hpath hstep ih =>
    have hadvances := Path.advances hpath
    obtain ⟨hsame, hsends⟩ := hstep.quiet (hadvances.paused hpaused) (hadvances.resumed hresumed)
    exact ⟨hsame.trans ih.1, trans_of (Session.Sends _) ih.2 hsends⟩

/-- A tracker that has paused and then resumed has come to a final state. -/
theorem final_of_paused {client : Client κ} {now : Session (Chronicle κ) Tracker}
    (hpaused : now.own.paused = true) (hresumed : now.own.resumed = true)
    (hshows : now.own.ShowsResumed) : Final client now := by
  constructor
  · intro later hrun new hnew object observed result hmem
    obtain ⟨sent, hsent, hlists⟩ := (hrun.path.quiet hpaused hresumed).2
    rw [List.append_cancel_left (hnew.symm.trans hsent)] at hmem
    exact hlists _ hmem
  · intro later hrun entry answer _ _ cluster hcluster
    have hpath : Path client now (entry.run client.recorded later).2 :=
      hrun.path.trans (leads_entry client entry later trivial).1
    rw [hpath.advances.ctx] at hcluster
    rw [(hpath.quiet hpaused hresumed).1]
    exact hshows cluster hcluster

/-- Once a call has made the resume mark, the resume is final just if the pause mark was there
before. -/
theorem resume_final_iff_paused {client : Client κ} {s : Session (Chronicle κ) Tracker}
    {entry : Entry} (hbefore : s.own.resumed = false)
    (hafter : (entry.run client.recorded s).2.own.resumed = true) :
    (entry.run client.recorded s).2.own.ShowsResumed ∧
      (s.own.paused = true ↔ ∀ (κ' : Type) (other : Client κ')
        (now : Session (Chronicle κ') Tracker), now.own = (entry.run client.recorded s).2.own →
          Final other now) := by
  have hresuming : Resuming s (entry.run client.recorded s).2 := by
    rcases same_or_resuming client.recorded entry s with hsame | hresuming
    · rw [show _ = s.own.resumed from hsame, hbefore] at hafter
      cases hafter
    · exact hresuming
  have hshows : (entry.run client.recorded s).2.own.ShowsResumed := by
    refine hresuming.shows (fun h => ?_) hafter
    rw [hbefore] at h
    cases h
  refine ⟨hshows, ?_, ?_⟩
  · intro hpaused κ' other now hown
    refine final_of_paused ?_ ?_ ?_
    · rw [hown, hresuming.paused, hpaused]
    · rw [hown, hafter]
    · exact hown ▸ hshows
  · intro hfinal
    by_contra hnot
    have hunpaused : (entry.run client.recorded s).2.own.paused = false := by
      rw [hresuming.paused]
      simpa using hnot
    obtain ⟨cluster, hcluster⟩ : ∃ cluster,
        (entry.run client.recorded s).2.own.ctx.hostedCluster = some cluster := by
      obtain ⟨m, cluster, hm, hmay, hlater⟩ :=
        Path.exists_resume (leads_entry client entry s trivial).1 hbefore hafter
      refine ⟨cluster, ?_⟩
      rw [hlater.advances.ctx, resumeNow_keeps client.recorded Tracker.ctx (fun _ _ => rfl)
        (fun _ _ => rfl)]
      exact hmay.cluster
    let now : Session (Chronicle Unit) Tracker :=
      ⟨0, fun _ => 0, ⟨(), []⟩, (entry.run client.recorded s).2.own⟩
    obtain ⟨new, hnew, hmem⟩ := mem_history_ensurePaused_obliging (s := now) hunpaused hcluster
    exact (hfinal Unit obliging now rfl).unpaused _ (.single (.call .ensurePaused now)) new hnew
      cluster _ _ hmem

/-- A pod resumes for good after a pause; before any pause it does not. -/
theorem resume_final_iff_paused_obliging :
    (∀ (κ' : Type) (other : Client κ') (now : Session (Chronicle κ') Tracker),
      now.own = ((Entry.execute samplePod).run obliging.recorded
        (Entry.ensurePaused.run obliging.recorded sampleStart).2).2.own → Final other now) ∧
    ¬ ∀ (κ' : Type) (other : Client κ') (now : Session (Chronicle κ') Tracker),
      now.own = ((Entry.execute samplePod).run obliging.recorded sampleStart).2.own →
        Final other now := by
  constructor
  · exact (resume_final_iff_paused (by decide +kernel) (by decide +kernel)).2.mp
      (by decide +kernel)
  · intro hfinal
    have hpaused : sampleStart.own.paused = true :=
      (resume_final_iff_paused (by decide +kernel) (by decide +kernel)).2.mpr hfinal
    cases hpaused

end BackupWatch.Tracker
