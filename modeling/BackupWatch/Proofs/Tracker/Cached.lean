import BackupWatch.Proofs.Job.Cached
import BackupWatch.Proofs.Tracker.Leftovers

/-!
Completion over the runs of a tracker. What has finished stays finished and what has started stays
started, whatever is called and whatever the client answers; and a kind that has finished is never
listed again, neither for its leftovers nor for a check.
-/

namespace BackupWatch.Tracker

open Act Cluster Job Pause Watch

variable {κ : Type} {client : Client κ} {ctx : Context} {config : Config}
variable {start s later : Session (Chronicle κ) Tracker}

/-- Along a path only kinds are listed that were still open at its start. -/
theorem Path.sends_unfinished (hstart : start.own = Tracker.new ctx config)
    (hs : Path client start s) (h : Path client s later) :
    Session.Sends s.own.progress.ListsUnfinished s later := by
  induction h with
  | refl => exact refl_of (Session.Sends _) s
  | @tail middle later hpath hstep ih =>
    refine trans_of (Session.Sends _) ih ?_
    have hadvances := (Path.advances hpath).progress
    rcases hstep.of_progress with ⟨inner, hinner, rfl⟩ | ⟨_, new, hnew, hothers⟩
    · have hfirst : middle.own.progress.SeededFirst := Path.seededFirst hstart (hs.trans hpath)
      obtain ⟨new, hnew, hlists⟩ := hinner.sends_unfinished hfirst
      refine ⟨new, hnew, fun e he kind ns hrequest => ?_⟩
      have hopen : middle.own.progress.isDone kind = false := hlists e he kind ns hrequest
      by_contra hdone
      rw [hadvances.isDone (by simpa using hdone)] at hopen
      cases hopen
    · refine ⟨new, hnew, fun e he kind ns hrequest => ?_⟩
      exact absurd (hrequest ▸ trivial) (hothers e he)

/-- With all stages finished no watched kind is listed any more. -/
theorem Path.sends_no_lists (hstart : start.own = Tracker.new ctx config)
    (hs : Path client start s) (h : Path client s later)
    (hfinished : s.own.progress.finished = true) :
    Session.Sends (fun e => ¬ e.request.isList) s later := by
  obtain ⟨new, hnew, hopen⟩ := Path.sends_unfinished hstart hs h
  obtain ⟨same, hsame, hstages⟩ := h.listsStages
  cases List.append_cancel_left (hnew.symm.trans hsame)
  refine ⟨new, hnew, fun e he hlist => ?_⟩
  cases hrequest : e.request with
  | list kind ns =>
    have hdone := hs.sound hstart hfinished kind (hstages e he kind ns hrequest)
    cases hdone.symm.trans (hopen e he kind ns hrequest)
  | _ =>
    rw [hrequest] at hlist
    exact hlist

/-- From any moment of a run to any later one, finished kinds stay as they are and started kinds
stay started; no finished kind is listed, and after the last stage none at all. Every later check
of a finished kind tells what is remembered, and asks for nothing. -/
theorem finished_kinds_are_not_listed_again (hstart : start.own = Tracker.new ctx config)
    (hs : Path client start s) (hlater : Path client s later) :
    (∀ kind, s.own.progress.isDone kind = true →
      later.own.progress.job.completion.get kind = s.own.progress.job.completion.get kind) ∧
    (∀ kind, s.own.progress.hasStarted kind = true →
      later.own.progress.hasStarted kind = true) ∧
    (∃ new, later.history = s.history ++ new ∧
      (∀ kind, s.own.progress.isDone kind = true → ∀ ns result, ⟨.list kind ns, result⟩ ∉ new) ∧
      (s.own.progress.finished = true → ∀ kind ns result, ⟨.list kind ns, result⟩ ∉ new)) ∧
    (∀ checker, s.own.progress.isDone checker.kind = true →
      Job.check client.recorded later.own.ctx checker (job later) =
        (.ok (.cached later.own.ctx checker.kind (s.own.progress.job.completion.get checker.kind)),
          job later)) ∧
    (∀ outcomes, (Tracker.check client.recorded later).1 = .ok outcomes →
      ∀ o ∈ outcomes, s.own.progress.isDone o.kind = true → o.reason = some .cached) := by
  have hjob := hlater.advances.progress.job
  have hdone : ∀ kind, s.own.progress.isDone kind = true →
      later.own.progress.isDone kind = true := fun _ => hlater.advances.progress.isDone
  refine ⟨hjob.done, hjob.started, ?_, ?_, ?_⟩
  · obtain ⟨new, hnew, hopen⟩ := Path.sends_unfinished hstart hs hlater
    refine ⟨new, hnew, fun kind hkind ns result hmem => ?_, fun hfinished kind ns result hmem => ?_⟩
    · cases hkind.symm.trans (hopen _ hmem kind ns rfl)
    · obtain ⟨same, hsame, hnone⟩ := Path.sends_no_lists hstart hs hlater hfinished
      cases List.append_cancel_left (hnew.symm.trans hsame)
      exact hnone _ hmem trivial
  · intro checker hkind
    have hremembered := hjob.done checker.kind hkind
    have hfinished : ((job later).own.completion.get checker.kind).finished = true :=
      hdone checker.kind hkind
    rw [check_of_finished hfinished]
    exact congrArg (fun current => (Except.ok (Outcome.cached later.own.ctx checker.kind current),
      job later)) hremembered
  · intro outcomes hok o ho hkind
    have hreports : later.own.progress.Reports later.own.ctx o :=
      Progress.reports_pass hok o ho
    rw [hreports (hdone o.kind hkind)]
    rfl

def nightlyContent (phase : Phase) : Object :=
  ⟨.snapshotContent, ⟨"nightly-content-0", none⟩, [], some "clusters-prod", phase, none⟩

def runningSnapshot : Object :=
  ⟨.snapshot, ⟨"nightly-snapshot-0", some "clusters-prod"⟩, [], none, .inProgress, none⟩

def contentStart : Session (Chronicle (List Object)) Tracker :=
  { failingStart with cluster := ⟨[nightlyContent .inProgress], []⟩ }

/-- The second pod finds the snapshot content complete and waits for the snapshot. When both are
gone, the third one asks only for what comes behind, and still knows that there was a content. -/
theorem finished_kinds_are_not_listed_again_content :
    let pod := fun s => ((Entry.execute samplePod).run holding.recorded s).2
    let s := pod (replaced [nightlyContent .completed, runningSnapshot] (pod contentStart))
    let later := pod (replaced [] s)
    Path holding contentStart s ∧ Path holding s later ∧
    s.own.progress.isDone .snapshotContent = true ∧ s.own.progress.isDone .snapshot = false ∧
    later.own.progress.job.completion.get .snapshotContent = ⟨true, true⟩ ∧
    ∃ new, later.history = s.history ++ new ∧
      ∀ ns result, ⟨.list .snapshotContent ns, result⟩ ∉ new := by
  intro pod s later
  have hcall : ∀ t, Turn holding t (pod t) := .call (.execute samplePod)
  have hs : Run holding contentStart s :=
    .tail (.tail (.single (hcall _)) (turn_replaced _ _)) (hcall _)
  have hlater : Run holding s later := .tail (.single (turn_replaced _ _)) (hcall _)
  have hdone : s.own.progress.isDone .snapshotContent = true := by decide +kernel
  have hstart : contentStart.own = Tracker.new sampleContext .standard := rfl
  obtain ⟨hsame, _, ⟨new, hnew, hlists, _⟩, _⟩ :=
    finished_kinds_are_not_listed_again hstart hs.path hlater.path
  refine ⟨hs.path, hlater.path, hdone, by decide +kernel, ?_, new, hnew, hlists _ hdone⟩
  exact (hsame _ hdone).trans (by decide +kernel)

end BackupWatch.Tracker
