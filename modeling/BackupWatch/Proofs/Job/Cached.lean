import BackupWatch.Proofs.Ends
import BackupWatch.Proofs.Job.Leftovers
import BackupWatch.Proofs.Job.Waiting

/-!
Finished kinds are remembered. A check of a finished kind answers from memory. Leftovers are
recorded for all stages before any stage is checked, so once a kind has finished they are not
looked for any more. Hence a step lists only kinds that were unfinished when it began.
-/

namespace BackupWatch.Job

open Act Cluster Watch

variable {κ : Type} {client : Client κ} {ctx : Context}

theorem check_of_finished {checker : Checker} {s : Session κ JobState}
    (h : (s.own.completion.get checker.kind).finished = true) :
    check client ctx checker s =
      (.ok (.cached ctx checker.kind (s.own.completion.get checker.kind)), s) := by
  simp only [check, run_bind, run_own, h, if_true, run_pure]

namespace Progress

def ListsUnfinished (p : Progress) (e : Exchange) : Prop :=
  ∀ kind ns, e.request = .list kind ns → p.isDone kind = false

/-- Requests for one unfinished kind alone list nothing finished. -/
theorem permits_listsUnfinished {p : Progress} {kind : Kind} (h : p.isDone kind = false) :
    client.recorded.Permits (fun request => ∃ ns, request = .list kind ns)
      (Session.Sends p.ListsUnfinished : Session (Chronicle κ) JobState → _ → Prop) := by
  refine Session.permits_sends client ?_
  rintro request result ⟨ns, rfl⟩ other place hrequest
  cases hrequest
  exact h

/-- As long as leftovers are missing no stage has finished, and with all of them nothing is listed
but the stage that is checked. -/
theorem Step.sends_unfinished {s later : Session (Chronicle κ) Progress}
    (h : Step client.recorded ctx s later) (hfirst : s.own.SeededFirst) :
    Session.Sends s.own.ListsUnfinished s later := by
  cases h with
  | pass millis => exact .of_history_eq rfl
  | @seed kind hmem =>
    by_cases hbuilt : s.own.job.leftovers.isBuilt kind = true
    · have hsame : onJob (Job.seed client.recorded ctx kind) s = (.ok (), s) := by
        rw [run_onJob, seed_of_isBuilt hbuilt]
        rfl
      rw [hsame]
      exact refl_of (Session.Sends _) s
    · have hnone := hfirst.resolve_left fun hseeded => hbuilt (hseeded kind hmem)
      have hopen := not_isDone_of_untouched (hnone kind)
      exact (moves_seed (permits_listsUnfinished hopen) (fun _ _ => .of_history_eq rfl) ctx kind
        (fun ns => ⟨ns, rfl⟩) (s.focus Progress.job) trivial).1
  | @check before after kind hat =>
    cases hdone : s.own.isDone kind with
    | true =>
      have hsame : onJob (Job.check client.recorded ctx (s.own.checkerAt before kind)) s =
          (.ok (.cached ctx kind (s.own.job.completion.get kind)), s) := by
        have hfinished : ((s.focus Progress.job).own.completion.get
            (s.own.checkerAt before kind).kind).finished = true := hdone
        rw [run_onJob, check_of_finished hfinished]
        rfl
      rw [hsame]
      exact refl_of (Session.Sends _) s
    | false =>
      exact (moves_check (permits_listsUnfinished hdone) (fun _ _ => .of_history_eq rfl) ctx _
        (fun ns => ⟨ns, rfl⟩) (s.focus Progress.job) trivial).1
  | finish _ => exact .of_history_eq rfl

/-- What is reported of a kind that had finished is what was remembered. -/
def Reports (ctx : Context) (p : Progress) (o : Outcome) : Prop :=
  p.isDone o.kind = true → o = .cached ctx o.kind (p.job.completion.get o.kind)

variable {p : Progress}

/-- A check reports of a kind that had finished what was remembered of it then. -/
theorem ends_check_reports (checker : Checker) :
    Ends (fun s => p.Advances s.own) (onJob (Job.check client ctx checker))
      (fun o s => p.Advances s.own ∧ p.Reports ctx o) fun _ _ => True := by
  intro s hs
  have hlater : p.Advances (onJob (Job.check client ctx checker) s).2.own :=
    trans_of Advances hs
      (advances_onJob (checking client ctx checker (s.focus Progress.job)).advances)
  have hcheck := checking client ctx checker (s.focus Progress.job)
  rw [run_onJob] at hlater ⊢
  generalize Job.check client ctx checker (s.focus Progress.job) = result at hcheck hlater
  have hstill : p.isDone checker.kind = true → (s.own.job.completion.get checker.kind) =
      p.job.completion.get checker.kind := fun hdone => hs.job.done checker.kind hdone
  cases hcheck with
  | cached _ =>
    refine .ok ⟨hlater, fun hdone => ?_⟩
    exact congrArg (Outcome.cached ctx checker.kind) (hstill hdone)
  | refused _ _ _ => exact .error trivial
  | failed _ _ _ _ => exact .error trivial
  | counted hopen _ _ _ hverdict =>
    subst hverdict
    refine .ok ⟨hlater, fun hdone => ?_⟩
    have hfinished := hs.isDone hdone
    rw [isDone, JobState.kind_verdict] at hfinished
    cases hfinished.symm.trans hopen

/-- So does each check of a pass. -/
theorem ends_passFrom_reports (previous : Option Kind) (kinds : List Kind) :
    Ends (fun s => p.Advances s.own) (passFrom client ctx previous kinds)
      (fun outcomes _ => ∀ o ∈ outcomes, p.Reports ctx o) fun _ _ => True := by
  induction kinds generalizing previous with
  | nil =>
    have hmark : Ends (fun s => p.Advances s.own) (markFinished : Act κ Progress Unit)
        (fun _ _ => True) fun _ _ => True := fun _ _ => .ok trivial
    exact ends_bind _ hmark fun _ => ends_pure _ fun _ _ => by simp
  | cons kind later ih =>
    unfold passFrom
    refine ends_bind (fun _ s => p.Advances s.own) (ends_own fun _ hs => hs) fun _ => ?_
    refine ends_bind _ (ends_check_reports _) fun o => ends_ite (fun _ => ?_) fun _ => ?_
    · intro s hs
      obtain ⟨hadvances, hreports⟩ := hs
      refine ends_bind _ (ih (some kind)) (fun outcomes => ends_pure _ fun _ hall => ?_) s hadvances
      exact List.forall_mem_cons.mpr ⟨hreports, hall⟩
    · refine ends_pure _ fun _ hs => ?_
      exact List.forall_mem_cons.mpr ⟨hs.2, by simp⟩

/-- A pass reports of the kinds that had finished before it that they had. -/
theorem reports_pass {s : Session κ Progress} {outcomes : List Outcome}
    (h : (pass client ctx s).1 = .ok outcomes) : ∀ o ∈ outcomes, s.own.Reports ctx o := by
  have hends : Ends (fun t => t = s) (pass client ctx)
      (fun outcomes _ => ∀ o ∈ outcomes, s.own.Reports ctx o) fun _ _ => True := by
    unfold pass
    refine ends_bind (fun _ t => t = s) (ends_own fun _ ht => ht) fun p => ?_
    refine ends_ite (fun _ => ends_pure _ fun _ _ => by simp) fun _ => ?_
    have hseed : Ends (fun t => t = s) (seedAll client ctx)
        (fun _ t => s.own.Advances t.own) fun _ _ => True := by
      rintro t rfl
      have hlead : Leads (Path client ctx) _ (seedAll client ctx) _ := leads_seedAll t.own.chain
      have hadvances := (hlead t rfl).1.advances
      rcases hrun : seedAll client ctx t with ⟨_ | _, later⟩
      · exact .error trivial
      · rw [hrun] at hadvances
        exact .ok hadvances
    exact ends_bind _ hseed fun _ => ends_passFrom_reports none p.chain.stages
  exact hends.of_ok rfl h

end Progress
end BackupWatch.Job
