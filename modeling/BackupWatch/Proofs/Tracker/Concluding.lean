import BackupWatch.Proofs.Pause.Resumption
import BackupWatch.Proofs.Tracker.Final

/-!
The calls that resume the workload once all data is durable: finalizing, and an item of an included
namespace that is none of the control plane. Each of them makes one attempt as long as the resume
mark is missing, and none when it stands; and an attempt makes the mark just if it has seen the
hosted cluster and every node pool that it was given run again.
-/

namespace BackupWatch.Tracker

open Act Cluster Job Pause Watch

variable {κ : Type} {client : Client κ}

/-- A call that resumes the workload once all data is durable. -/
def Entry.closes (ctx : Context) : Entry → Bool
  | execute item => !item.isControlPlane && item.ns.any ctx.includes
  | ensurePaused => false
  | check => false
  | finalize => true

def Entry.told : (entry : Entry) → entry.Answer → Option ItemAction
  | execute _, action => some action
  | ensurePaused, _ => none
  | check, _ => none
  | finalize, action => some action

/-- A call, of whose answer only the action is kept. -/
def Entry.report (client : Client κ) (entry : Entry) : Act κ Tracker (Option ItemAction) := do
  return entry.told (← entry.run client)

theorem Entry.run_report (client : Client κ) (entry : Entry) (s : Session κ Tracker) :
    entry.report client s = ((entry.run client s).1.map entry.told, (entry.run client s).2) :=
  run_bind_pure ..

section Conclude

variable {s : Session κ Tracker}

theorem conclude_of_migration (h : s.own.ctx.migration = true) :
    conclude client s = (.ok .leftPaused, s) := by
  have hnothing : resumeOnce client s = (.ok (), s) := by
    unfold resumeOnce
    rw [run_bind, run_own]
    simp only [h, if_true]
    split <;> rfl
  rw [conclude, run_bind, hnothing]
  simp only [run_bind, run_own, run_pure, finishedAction, h, if_true]

/-- A workload that has been resumed is not resumed again. -/
theorem conclude_of_resumed (h : s.own.resumed = true) (hmigration : s.own.ctx.migration = false) :
    conclude client s = (.ok .resumed, s) := by
  have hnothing : resumeOnce client s = (.ok (), s) := by
    unfold resumeOnce
    rw [run_bind, run_own]
    simp only [h, if_true, run_pure]
  rw [conclude, run_bind, hnothing]
  simp only [run_bind, run_own, run_pure, finishedAction, hmigration, Bool.false_eq_true, if_false]

theorem conclude_of_no_cluster (hresumed : s.own.resumed = false)
    (hmigration : s.own.ctx.migration = false) (hcluster : s.own.ctx.hostedCluster = none) :
    conclude client s =
      (.error (.error (DiscoveryFault.noHostedCluster s.own.ctx.backup).toError), s) := by
  rw [conclude, run_bind, resumeOnce, run_bind, run_own]
  simp only [hresumed, hmigration, Bool.false_eq_true, if_false]
  rw [run_bind, hostedCluster, hcluster]
  rfl

/-- Without the mark, one attempt is made. -/
theorem conclude_of_cluster {cluster : Managed} (hresumed : s.own.resumed = false)
    (hmigration : s.own.ctx.migration = false)
    (hcluster : s.own.ctx.hostedCluster = some cluster) :
    conclude client s = ((resumeNow client cluster s).1.map fun _ => .resumed,
      (resumeNow client cluster s).2) := by
  have hattempt : resumeOnce client s = resumeNow client cluster s := by
    rw [resumeOnce, run_bind, run_own]
    simp only [hresumed, hmigration, Bool.false_eq_true, if_false]
    rw [run_bind, hostedCluster, hcluster]
    rfl
  have hctx := resumeNow_keeps client Tracker.ctx (fun _ _ => rfl) (fun _ _ => rfl) cluster s
  rw [conclude, run_bind, hattempt]
  rcases hrun : resumeNow client cluster s with ⟨f | _, later⟩
  · rfl
  · rw [hrun] at hctx
    have hmigration' : later.own.ctx.migration = false := by
      rw [show later.own.ctx = s.own.ctx from hctx]
      exact hmigration
    simp only [run_bind, run_own, run_pure, finishedAction, hmigration', Bool.false_eq_true,
      if_false]
    rfl

/-- A data item of a finished chain concludes; otherwise it checks first. -/
theorem run_executeData (s : Session κ Tracker) :
    executeData client s =
      if s.own.isFinished then conclude client s
      else match Tracker.check client s with
        | (.error f, later) => (.error f, later)
        | (.ok _, later) =>
          if later.own.isFinished then conclude client later else (.ok .pending, later) := by
  rw [executeData, run_bind, run_own]
  by_cases hfinished : s.own.isFinished = true
  · simp only [hfinished, Bool.not_true, Bool.false_eq_true, if_false, if_true]
  · simp only [hfinished, Bool.not_false, if_true, Bool.false_eq_true, if_false]
    rw [run_bind]
    rcases Tracker.check client s with ⟨f | outcomes, later⟩
    · rfl
    · simp only [run_bind, run_own]
      by_cases hlater : later.own.isFinished = true
      · simp only [hlater, Bool.not_true, Bool.false_eq_true, if_false, if_true]
      · simp only [hlater, Bool.not_false, if_true, Bool.false_eq_true, if_false, run_pure]

theorem run_finalize (s : Session κ Tracker) :
    Tracker.finalize client s =
      match onProgress (Progress.wait client s.own.ctx s.own.upload) s with
      | (.error f, later) => (.error f, later)
      | (.ok _, later) => conclude client later := by
  rw [Tracker.finalize, run_bind, run_own]
  simp only [run_bind]
  rcases onProgress (Progress.wait client s.own.ctx s.own.upload) s with ⟨_ | _, _⟩ <;> rfl

theorem run_execute_of_closes {item : Item} (h : (Entry.execute item).closes s.own.ctx = true) :
    Tracker.execute client item s = executeData client s := by
  simp only [Entry.closes, Bool.and_eq_true, Bool.not_eq_true'] at h
  rw [Tracker.execute, if_neg (by simp [h.1]), run_bind, run_own]
  simp only [h.2, Bool.not_true, Bool.false_eq_true, if_false]

/-- With all stages finished nothing is left but to resume. -/
theorem report_of_finished {entry : Entry} (hcloses : entry.closes s.own.ctx = true)
    (hfinished : s.own.progress.finished = true) :
    entry.report client s = ((conclude client s).1.map some, (conclude client s).2) := by
  rw [Entry.run_report]
  cases entry with
  | execute item =>
    change ((Tracker.execute client item s).1.map some, (Tracker.execute client item s).2) = _
    have hdone : s.own.isFinished = true := hfinished
    rw [run_execute_of_closes hcloses, run_executeData, if_pos hdone]
  | ensurePaused => cases hcloses
  | check => cases hcloses
  | finalize =>
    have hdone : (s.focus Tracker.progress).own.finished = true := hfinished
    have hinner : Progress.wait client s.own.ctx s.own.upload (s.focus Tracker.progress) =
        (.ok (), s.focus Tracker.progress) := by
      rw [Progress.wait, run_bind, run_own]
      simp only [hdone, if_true, run_pure]
    have hwait : onProgress (Progress.wait client s.own.ctx s.own.upload) s = (.ok (), s) := by
      rw [onProgress, run_within, hinner]
      rfl
    change ((Tracker.finalize client s).1.map some, (Tracker.finalize client s).2) = _
    rw [run_finalize, hwait]

end Conclude

/-- What comes before a call resumes: it lists at most. -/
structure Looking (s later : Session (Chronicle κ) Tracker) : Prop where
  sends : Session.Sends (fun e => e.request.isList) s later
  ctx : later.own.ctx = s.own.ctx
  resumed : later.own.resumed = s.own.resumed

theorem looking_onProgress {α : Type} {ctx : Context} {act : Act (Chronicle κ) Progress α}
    {s : Session (Chronicle κ) Tracker}
    (h : Progress.Path client.recorded ctx (s.focus Tracker.progress)
      (act (s.focus Tracker.progress)).2) : Looking s (onProgress act s).2 :=
  ⟨h.sends_lists, rfl, rfl⟩

/-- A call that closes looks for what is still to finish; then it resumes, or goes no further. -/
theorem exists_looking (client : Client κ) {entry : Entry} {s : Session (Chronicle κ) Tracker}
    (hcloses : entry.closes s.own.ctx = true) :
    ∃ middle, Looking s middle ∧ ((entry.run client.recorded s).2 = middle ∨
      middle.own.progress.finished = true ∧
        (entry.run client.recorded s).2 = (conclude client.recorded middle).2) := by
  cases entry with
  | execute item =>
    change ∃ middle, Looking s middle ∧ ((Tracker.execute client.recorded item s).2 = middle ∨ _ ∧
      (Tracker.execute client.recorded item s).2 = _)
    rw [run_execute_of_closes hcloses, run_executeData]
    by_cases hfinished : s.own.isFinished = true
    · rw [if_pos hfinished]
      exact ⟨s, ⟨refl_of (Session.Sends _) s, rfl, rfl⟩, Or.inr ⟨hfinished, rfl⟩⟩
    · rw [if_neg hfinished]
      have hcheck : Looking s (Tracker.check client.recorded s).2 :=
        looking_onProgress (Progress.leads_pass (s.focus Tracker.progress) trivial).1
      generalize Tracker.check client.recorded s = result at hcheck ⊢
      rcases result with ⟨f | outcomes, later⟩
      · exact ⟨later, hcheck, Or.inl rfl⟩
      · by_cases hlater : later.own.isFinished = true
        · simp only [hlater, if_true]
          exact ⟨later, hcheck, Or.inr ⟨hlater, rfl⟩⟩
        · simp only [hlater, if_false, Bool.false_eq_true]
          exact ⟨later, hcheck, Or.inl rfl⟩
  | ensurePaused => cases hcloses
  | check => cases hcloses
  | finalize =>
    change ∃ middle, Looking s middle ∧ ((Tracker.finalize client.recorded s).2 = middle ∨ _ ∧
      (Tracker.finalize client.recorded s).2 = _)
    rw [run_finalize]
    have hwait : Act.Leads (Progress.Path client.recorded s.own.ctx) (fun _ => True)
        (Progress.wait client.recorded s.own.ctx s.own.upload) fun _ p => p.own.finished = true :=
      Progress.leads_wait s.own.upload
    obtain ⟨hpath, hdone⟩ := hwait (s.focus Tracker.progress) trivial
    have hlead : Looking s (onProgress (Progress.wait client.recorded s.own.ctx s.own.upload) s).2 ∧
        ∀ a, (onProgress (Progress.wait client.recorded s.own.ctx s.own.upload) s).1 = .ok a →
          (onProgress (Progress.wait client.recorded s.own.ctx s.own.upload) s).2.own.isFinished =
            true := ⟨looking_onProgress hpath, hdone⟩
    generalize onProgress (Progress.wait client.recorded s.own.ctx s.own.upload) s = waited at hlead
    rcases waited with ⟨f | _, later⟩
    · exact ⟨later, hlead.1, Or.inl rfl⟩
    · exact ⟨later, hlead.1, Or.inr ⟨hlead.2 () rfl, rfl⟩⟩

/-- A call that does not close leaves the resume mark alone. -/
theorem resumed_of_not_closes {entry : Entry} {s : Session κ Tracker}
    (h : entry.closes s.own.ctx = false) :
    (entry.run client s).2.own.resumed = s.own.resumed := by
  cases entry with
  | execute item =>
    by_cases hplane : item.isControlPlane = true
    · exact (moves_execute_of (fun _ => moves_ensurePaused client)
        (fun hdata => absurd hplane hdata) s trivial).1
    · have houtside : item.ns.any s.own.ctx.includes = false := by
        simpa [Entry.closes, hplane] using h
      have hignored : Tracker.execute client item s = (.ok .ignored, s) := by
        rw [Tracker.execute, if_neg hplane, run_bind, run_own]
        simp only [houtside, Bool.not_false, if_true, run_pure]
      change (Tracker.execute client item s).2.own.resumed = _
      rw [hignored]
  | ensurePaused => exact (moves_ensurePaused client s trivial).1
  | check => rfl
  | finalize => cases h

/-- An attempt makes the mark just if it succeeds. -/
theorem resumed_resumeNow {cluster : Managed} {s : Session κ Tracker}
    (hunresumed : s.own.resumed = false) :
    (resumeNow client cluster s).2.own.resumed = true ↔
      (Orchestrator.resume client cluster (s.focus Tracker.orchestrator)).1 = .ok () := by
  have hresult : (resumeNow client cluster s).1 = _ := result_marked _ _ s
  rw [← hresult]
  rcases hrun : (resumeNow client cluster s).1 with f | _
  · have hown : (resumeNow client cluster s).2.own = _ := own_marked_of_error hrun
    refine iff_of_false ?_ (by simp)
    rw [hown]
    simp [hunresumed]
  · have hown : (resumeNow client cluster s).2.own = _ := own_marked_of_ok hrun
    exact iff_of_true (by rw [hown]) rfl

/-- What is asked for behind the lists tells whether the mark is made. -/
theorem exists_conclude {s : Session (Chronicle κ) Tracker} (hunresumed : s.own.resumed = false) :
    ∃ new, (conclude client.recorded s).2.history = s.history ++ new ∧
      (∀ e ∈ new, ¬ e.request.isList) ∧
      ((conclude client.recorded s).2.own.resumed = true ↔
        ∃ cluster, s.own.ctx.hostedCluster = some cluster ∧
          Orchestrator.Resumption cluster new) := by
  have hidle : (conclude client.recorded s).2 = s → ∃ new,
      (conclude client.recorded s).2.history = s.history ++ new ∧
      (∀ e ∈ new, ¬ e.request.isList) ∧
      ((conclude client.recorded s).2.own.resumed = true ↔
        ∃ cluster, s.own.ctx.hostedCluster = some cluster ∧
          Orchestrator.Resumption cluster new) := by
    intro hsame
    rw [hsame]
    refine ⟨[], (List.append_nil _).symm, by simp, iff_of_false (by simp [hunresumed]) ?_⟩
    rintro ⟨_, _, hnothing⟩
    exact hnothing.ne_nil rfl
  cases hmigration : s.own.ctx.migration with
  | true => exact hidle (by rw [conclude_of_migration hmigration])
  | false =>
    cases hcluster : s.own.ctx.hostedCluster with
    | none =>
      rw [← hcluster]
      exact hidle (by rw [conclude_of_no_cluster hunresumed hmigration hcluster])
    | some cluster =>
      rw [conclude_of_cluster hunresumed hmigration hcluster]
      obtain ⟨new, hnew, hattempted, hdone⟩ := Orchestrator.exists_resume client cluster
        (s.focus Tracker.orchestrator)
      refine ⟨new, (history_resumeNow client cluster s).trans hnew, hattempted.unlisting, ?_⟩
      rw [resumed_resumeNow hunresumed, hdone]
      constructor
      · exact fun h => ⟨cluster, rfl, h⟩
      · rintro ⟨other, hother, h⟩
        exact Option.some.inj hother ▸ h

/-- Of two lists that each consist of a part of one sort and a part without that sort, the second
parts are the same. -/
theorem eq_of_append_eq {α : Type} {sort : α → Prop} {first second first' second' : List α}
    (h : first ++ second = first' ++ second') (hfirst : ∀ a ∈ first, sort a)
    (hfirst' : ∀ a ∈ first', sort a) (hsecond : ∀ a ∈ second, ¬ sort a)
    (hsecond' : ∀ a ∈ second', ¬ sort a) : second = second' := by
  rcases List.append_eq_append_iff.mp h with ⟨middle, rfl, rfl⟩ | ⟨middle, rfl, rfl⟩
  · cases middle with
    | nil => rfl
    | cons a rest =>
      exact absurd (hfirst' a (by simp)) (hsecond a (by simp))
  · cases middle with
    | nil => rfl
    | cons a rest =>
      exact absurd (hfirst a (by simp)) (hsecond' a (by simp))

/-- The mark is made just by a call whose last exchanges are a resume that succeeds. -/
theorem resumed_iff_resumption {entry : Entry} {s : Session (Chronicle κ) Tracker}
    (hcloses : entry.closes s.own.ctx = true) (hunresumed : s.own.resumed = false) :
    (entry.run client.recorded s).2.own.resumed = true ↔
      ∃ cluster lists attempt, s.own.ctx.hostedCluster = some cluster ∧
        (entry.run client.recorded s).2.history = s.history ++ (lists ++ attempt) ∧
        (∀ e ∈ lists, e.request.isList) ∧ Orchestrator.Resumption cluster attempt := by
  obtain ⟨middle, hlooking, hends⟩ := exists_looking client hcloses
  obtain ⟨lists, hlists, hall⟩ := hlooking.sends
  have hunresumed' : middle.own.resumed = false := hlooking.resumed.trans hunresumed
  obtain ⟨attempt, hattempt, hunlisting, hmark⟩ : ∃ attempt,
      (entry.run client.recorded s).2.history = middle.history ++ attempt ∧
      (∀ e ∈ attempt, ¬ e.request.isList) ∧
      ((entry.run client.recorded s).2.own.resumed = true ↔
        ∃ cluster, s.own.ctx.hostedCluster = some cluster ∧
          Orchestrator.Resumption cluster attempt) := by
    rcases hends with hsame | ⟨_, hconclude⟩
    · rw [hsame]
      refine ⟨[], (List.append_nil _).symm, by simp, iff_of_false (by simp [hunresumed']) ?_⟩
      rintro ⟨_, _, hnothing⟩
      exact hnothing.ne_nil rfl
    · rw [hconclude, ← hlooking.ctx]
      exact exists_conclude hunresumed'
  have hhistory : (entry.run client.recorded s).2.history = s.history ++ (lists ++ attempt) := by
    rw [hattempt, hlists, List.append_assoc]
  rw [hmark]
  constructor
  · rintro ⟨cluster, hcluster, hdone⟩
    exact ⟨cluster, lists, attempt, hcluster, hhistory, hall, hdone⟩
  · rintro ⟨cluster, lists', attempt', hcluster, hhistory', hall', hdone⟩
    have hsame : attempt' = attempt :=
      eq_of_append_eq (List.append_cancel_left (hhistory'.symm.trans hhistory)) hall' hall
        hdone.attempted.unlisting hunlisting
    exact ⟨cluster, hcluster, hsame ▸ hdone⟩

/-- A workload is resumed only with all stages finished, and never for a migration. -/
def MarkSound (t : Tracker) : Prop :=
  t.resumed = true → t.progress.finished = true ∧ t.ctx.migration = false

/-- A step sets the mark only in a resume that has gone through. -/
theorem Step.markSound {s later : Session (Chronicle κ) Tracker} (h : Step client s later)
    (hs : s.own.MarkSound) : later.own.MarkSound := by
  have hadvances := h.advances
  have hkeep : later.own.resumed = s.own.resumed → later.own.MarkSound := by
    intro hsame hresumed
    obtain ⟨hfinished, hmigration⟩ := hs (hsame ▸ hresumed)
    exact ⟨hadvances.progress.finished hfinished, hadvances.ctx ▸ hmigration⟩
  cases h with
  | idle hown _ => exact hkeep (by rw [hown])
  | progress _ => exact hkeep rfl
  | pause _ => exact hkeep (pauseNow_keeps client.recorded Tracker.resumed (fun _ _ => rfl)
      (fun _ _ => rfl) s.own.ctx _ s)
  | resume hmay =>
    exact fun _ => ⟨hadvances.progress.finished hmay.finished, hadvances.ctx ▸ hmay.migration⟩

/-- By induction the mark of a new tracker is sound wherever a path leads. -/
theorem Path.markSound {ctx : Context} {config : Config} {start s : Session (Chronicle κ) Tracker}
    (hstart : start.own = Tracker.new ctx config) (h : Path client start s) :
    s.own.MarkSound := by
  induction h with
  | refl =>
    rw [hstart]
    intro hresumed
    cases hresumed
  | tail _ hstep ih => exact hstep.markSound ih

/-- An attempt to resume a hosted cluster: it asks for something, answers as it goes and makes the
mark just if it succeeds. -/
structure Attempts (client : Client κ) (cluster : Managed) (s : Session (Chronicle κ) Tracker)
    (ended : Except Failure (Option ItemAction) × Session (Chronicle κ) Tracker) : Prop where
  result : ended.1 = (Orchestrator.resume client.recorded cluster
    (s.focus Tracker.orchestrator)).1.map fun _ => some .resumed
  requests : ∃ answer rest, ended.2.history =
    (Orchestrator.resume client.recorded cluster (s.focus Tracker.orchestrator)).2.history ∧
    ended.2.history = s.history ++ ⟨.readPause cluster, answer⟩ :: rest
  finished : ended.2.own.progress.finished = true
  resumed : ended.2.own.resumed = true ↔ ended.1 = .ok (some .resumed)

/-- Concluding a finished chain attempts the resume that has not gone through so far. -/
theorem attempts_of_finished {entry : Entry} {cluster : Managed}
    {s : Session (Chronicle κ) Tracker} (hcloses : entry.closes s.own.ctx = true)
    (hfinished : s.own.progress.finished = true) (hresumed : s.own.resumed = false)
    (hmigration : s.own.ctx.migration = false)
    (hcluster : s.own.ctx.hostedCluster = some cluster) :
    Attempts client cluster s (entry.report client.recorded s) := by
  have hresult : (resumeNow client.recorded cluster s).1 = _ := result_marked _ _ s
  have hprogress := resumeNow_keeps client.recorded Tracker.progress (fun _ _ => rfl)
    (fun _ _ => rfl) cluster s
  obtain ⟨new, hnew, hattempted, _⟩ := Orchestrator.exists_resume client cluster
    (s.focus Tracker.orchestrator)
  have hhistory := history_resumeNow client cluster s
  rw [report_of_finished hcloses hfinished, conclude_of_cluster hresumed hmigration hcluster]
  refine ⟨?_, ?_, hprogress ▸ hfinished, ?_⟩
  · rw [hresult]
    cases (Orchestrator.resume client.recorded cluster (s.focus Tracker.orchestrator)).1 <;> rfl
  · have hbegun := hattempted.begun
    cases new with
    | nil => cases hbegun
    | cons e rest =>
      obtain ⟨request, answer⟩ := e
      obtain rfl : request = .readPause cluster := by simpa using hbegun
      exact ⟨answer, rest, hhistory, hhistory.trans hnew⟩
  · rw [resumed_resumeNow hresumed, ← hresult]
    cases (resumeNow client.recorded cluster s).1 <;> simp [Except.map]

/-- With all stages finished, a call that closes leaves a migration alone and otherwise attempts to
resume, for as long as the resume mark is missing. The mark is made just by such a call when it
has brought the hosted cluster and all node pools of its list to the target. From then on these
calls tell that the workload was resumed, and ask for nothing. -/
theorem failed_resume_is_retried {ctx : Context} {config : Config}
    {start s : Session (Chronicle κ) Tracker} (hstart : start.own = Tracker.new ctx config)
    (hrun : Run client start s) :
    (∀ entry : Entry, entry.closes s.own.ctx = true → s.own.progress.finished = true →
      s.own.ctx.migration = true →
      entry.report client.recorded s = (.ok (some .leftPaused), s)) ∧
    (∀ entry : Entry, entry.closes s.own.ctx = true → s.own.progress.finished = true →
      s.own.ctx.migration = false → s.own.resumed = false →
      (s.own.ctx.hostedCluster = none → entry.report client.recorded s =
        (.error (.error (DiscoveryFault.noHostedCluster s.own.ctx.backup).toError), s)) ∧
      ∀ cluster, s.own.ctx.hostedCluster = some cluster →
        Attempts client cluster s (entry.report client.recorded s)) ∧
    (∀ entry : Entry, entry.closes s.own.ctx = false →
      (entry.run client.recorded s).2.own.resumed = s.own.resumed) ∧
    (∀ entry : Entry, entry.closes s.own.ctx = true → s.own.resumed = false →
      ((entry.run client.recorded s).2.own.resumed = true ↔
        ∃ cluster lists attempt, s.own.ctx.hostedCluster = some cluster ∧
          (entry.run client.recorded s).2.history = s.history ++ (lists ++ attempt) ∧
          (∀ e ∈ lists, e.request.isList) ∧ Orchestrator.Resumption cluster attempt)) ∧
    (s.own.resumed = true → ∀ later, Run client s later → ∀ entry : Entry,
      entry.closes s.own.ctx = true →
      entry.report client.recorded later = (.ok (some .resumed), later)) := by
  refine ⟨?_, ?_, fun _ => resumed_of_not_closes, fun _ => resumed_iff_resumption, ?_⟩
  · intro entry hcloses hfinished hmigration
    rw [report_of_finished hcloses hfinished, conclude_of_migration hmigration]
    rfl
  · intro entry hcloses hfinished hmigration hresumed
    refine ⟨fun hcluster => ?_, fun cluster hcluster =>
      attempts_of_finished hcloses hfinished hresumed hmigration hcluster⟩
    rw [report_of_finished hcloses hfinished,
      conclude_of_no_cluster hresumed hmigration hcluster]
    rfl
  · intro hresumed later hlater entry hcloses
    have hadvances := hlater.path.advances
    have hresumed' := hadvances.resumed hresumed
    obtain ⟨hfinished, hmigration⟩ := Path.markSound hstart (hrun.path.trans hlater.path) hresumed'
    rw [report_of_finished (hadvances.ctx ▸ hcloses) hfinished,
      conclude_of_resumed hresumed' hmigration]
    rfl

/-- A client that refuses some writes before it grants the others. -/
def reluctant : Client Nat where
  accepts _ := true
  reply request _ left := match request with
    | .list _ _ => ⟨.ok [], 0, left⟩
    | .readPause _ => ⟨.ok ⟨none, none⟩, 0, left⟩
    | .writePause _ _ _ =>
      ⟨if left = 0 then .ok () else .error (.api ⟨500, "InternalError", "webhook failed"⟩), 0,
        left - 1⟩
    | .nodePools cluster => ⟨.ok [⟨.nodePool, cluster.ns, "workers"⟩], 0, left⟩
    | .controlPlane _ => ⟨.ok none, 0, left⟩
    | .controlPlanesIn _ => ⟨.ok [], 0, left⟩

def reluctantStart : Session (Chronicle Nat) Tracker :=
  ⟨0, fun _ => 0, ⟨1, []⟩, Tracker.new sampleContext .standard⟩

/-- The pod that finishes the chain cannot resume, finalizing can, and another pod need not. -/
theorem failed_resume_is_retried_reluctant :
    let failed := ((Entry.execute samplePod).run reluctant.recorded reluctantStart).2
    let resumed := (Entry.finalize.run reluctant.recorded failed).2
    failed.own.progress.finished = true ∧ failed.own.resumed = false ∧
    Attempts reluctant sampleCluster failed (Entry.finalize.report reluctant.recorded failed) ∧
    resumed.own.resumed = true ∧
    (Entry.execute samplePod).report reluctant.recorded resumed =
      (.ok (some .resumed), resumed) := by
  intro failed resumed
  have hstart : reluctantStart.own = Tracker.new sampleContext .standard := rfl
  have hfailed : Run reluctant reluctantStart failed := .single (.call _ _)
  have hresumed : Run reluctant reluctantStart resumed := hfailed.tail (.call .finalize failed)
  have hfinished : failed.own.progress.finished = true := by decide +kernel
  have hunmarked : failed.own.resumed = false := by decide +kernel
  have hmarked : resumed.own.resumed = true := by decide +kernel
  obtain ⟨_, hretry, _⟩ := failed_resume_is_retried hstart hfailed
  obtain ⟨_, _, _, _, hdone⟩ := failed_resume_is_retried hstart hresumed
  refine ⟨hfinished, hunmarked, ?_, hmarked, ?_⟩
  · exact (hretry .finalize rfl hfinished (by decide +kernel) hunmarked).2 sampleCluster
      (by decide +kernel)
  · exact hdone hmarked resumed .refl (.execute samplePod) (by decide +kernel)

end BackupWatch.Tracker
