import BackupWatch.Proofs.Job.Trial
import BackupWatch.Proofs.Job.Waiting

/-!
Passes that a request error breaks off, in a cluster whose watched objects stay as they are. What
such a pass has recorded and found finished is what the next one would record and find, and it has
not touched the stage that it was broken off at. So a later pass that meets no request error ends
as the first one would have ended without its error.
-/

namespace BackupWatch.Job

open Act Cluster Watch

variable {κ σ α : Type} {client : Client κ} {ctx : Context}
variable {held : Kind → Option String → List Object}

def noteAll (ctx : Context) (held : Kind → Option String → List Object) (kinds : List Kind)
    (job : JobState) : JobState :=
  kinds.foldl (fun job kind => job.note kind (listed ctx held kind)) job

theorem advances_noteAll (kinds : List Kind) (job : JobState) :
    job.Advances (noteAll ctx held kinds job) := by
  induction kinds generalizing job with
  | nil => exact refl_of JobState.Advances job
  | cons kind rest ih => exact trans_of JobState.Advances (job.advances_note kind _) (ih _)

theorem completion_noteAll (kinds : List Kind) (job : JobState) :
    (noteAll ctx held kinds job).completion = job.completion := by
  induction kinds generalizing job with
  | nil => rfl
  | cons kind rest ih => exact ih (job.note kind _)

theorem isBuilt_noteAll {kinds : List Kind} {kind : Kind} (h : kind ∈ kinds) (job : JobState) :
    (noteAll ctx held kinds job).leftovers.isBuilt kind = true := by
  induction kinds generalizing job with
  | nil => cases h
  | cons first rest ih =>
    rcases List.mem_cons.mp h with rfl | hrest
    · exact (advances_noteAll rest _).isBuilt (Leftovers.isBuilt_record_self ..)
    · exact ih hrest (job.note first _)

/-- Leftovers are recorded once and for all. -/
theorem noteAll_of_isBuilt {kinds : List Kind} {job : JobState}
    (h : ∀ kind ∈ kinds, job.leftovers.isBuilt kind = true) : noteAll ctx held kinds job = job := by
  induction kinds with
  | nil => rfl
  | cons kind rest ih =>
    have hfirst : job.note kind (listed ctx held kind) = job := by
      rw [JobState.note, Leftovers.record_of_isBuilt (h kind (List.mem_cons_self ..))]
    unfold noteAll
    rw [List.foldl_cons, hfirst]
    exact ih fun other hother => h other (List.mem_cons_of_mem kind hother)

/-- Kinds whose leftovers have been recorded do not matter any more. -/
theorem noteAll_noteAll (before after : List Kind) (job : JobState) :
    noteAll ctx held (before ++ after) (noteAll ctx held before job) =
      noteAll ctx held (before ++ after) job := by
  have hsame : noteAll ctx held before (noteAll ctx held before job) =
      noteAll ctx held before job :=
    noteAll_of_isBuilt fun kind hkind => isBuilt_noteAll hkind job
  unfold noteAll at hsame ⊢
  rw [List.foldl_append, List.foldl_append, hsame]

/-- What is reported of a kind, however it was found out. -/
def Outcome.state (o : Outcome) : Kind × Completion := (o.kind, ⟨o.started, o.finished⟩)

/-- The same own state, and the same failure or the same reports. -/
structure SameEnd (x y : Except Failure (List Outcome) × σ) : Prop where
  own : x.2 = y.2
  result : x.1.map (List.map Outcome.state) = y.1.map (List.map Outcome.state)

theorem SameEnd.of_eq {x y : Except Failure (List Outcome) × σ} (h : x = y) : SameEnd x y :=
  h ▸ ⟨rfl, rfl⟩

theorem SameEnd.trans {x y z : Except Failure (List Outcome) × σ} (h : SameEnd x y)
    (h' : SameEnd y z) : SameEnd x z :=
  ⟨h.own.trans h'.own, h.result.trans h'.result⟩

/-- The same reports before the same ends. -/
theorem SameEnd.cons {x y : Except Failure (List Outcome) × σ} (h : SameEnd x y) {o o' : Outcome}
    (ho : o.state = o'.state) : SameEnd (x.1.map (o :: ·), x.2) (y.1.map (o' :: ·), y.2) := by
  refine ⟨h.own, ?_⟩
  have hresult := h.result
  rcases x with ⟨f | outcomes, last⟩ <;> rcases y with ⟨f' | outcomes', last'⟩
  · exact hresult
  · cases hresult
  · cases hresult
  · simp only [Except.map, Except.ok.injEq, List.map_cons] at hresult ⊢
    rw [ho, hresult]

namespace Progress

/-- The checks of a pass on the listings that they are to see. -/
def sweep (ctx : Context) (held : Kind → Option String → List Object) (previous : Option Kind) :
    List Kind → Progress → Except Failure (List Outcome) × Progress
  | [], p => (.ok [], { p with finished := true })
  | kind :: rest, p =>
    match inspect ctx (listed ctx held kind) (stageChecker p.job previous kind) p.job with
    | (.error f, job) => (.error f, { p with job })
    | (.ok o, job) =>
      if o.finished then
        ((sweep ctx held (some kind) rest { p with job }).1.map (o :: ·),
          (sweep ctx held (some kind) rest { p with job }).2)
      else (.ok [o], { p with job })

def sweepAll (ctx : Context) (held : Kind → Option String → List Object) (p : Progress) :
    Except Failure (List Outcome) × Progress :=
  if p.finished then (.ok [], p)
  else sweep ctx held none p.chain.stages { p with job := noteAll ctx held p.chain.stages p.job }

/-- Where checks that are broken off at a stage leave a progress. -/
structure CutShort (ctx : Context) (held : Kind → Option String → List Object)
    (previous : Option Kind) (kinds : List Kind) (p : Progress) (kind : Kind) (later : Progress) :
    Prop where
  place : ∃ before after, kinds = before ++ kind :: after ∧ ∀ stage ∈ kind :: after,
    later.job.completion.get stage = p.job.completion.get stage
  advances : p.Advances later
  finished : later.finished = p.finished
  sameEnd : SameEnd (sweep ctx held previous kinds later) (sweep ctx held previous kinds p)

theorem cutShort_refl (previous : Option Kind) (kind : Kind) (rest : List Kind) (p : Progress) :
    CutShort ctx held previous (kind :: rest) p kind p :=
  ⟨⟨[], rest, rfl, fun _ _ => rfl⟩, refl_of Advances p, rfl, rfl, rfl⟩

section Sweep

variable {previous : Option Kind} {kind : Kind} {rest : List Kind} {p : Progress} {job : JobState}

theorem sweep_of_error {f : Failure} (h : inspect ctx (listed ctx held kind)
    (stageChecker p.job previous kind) p.job = (.error f, job)) :
    sweep ctx held previous (kind :: rest) p = (.error f, { p with job }) := by
  rw [sweep, h]

theorem sweep_of_pending {o : Outcome} (h : inspect ctx (listed ctx held kind)
    (stageChecker p.job previous kind) p.job = (.ok o, job)) (ho : ¬ o.finished = true) :
    sweep ctx held previous (kind :: rest) p = (.ok [o], { p with job }) := by
  rw [sweep, h]
  simp only [ho, if_false, Bool.false_eq_true]

theorem sweep_of_finished {o : Outcome} (h : inspect ctx (listed ctx held kind)
    (stageChecker p.job previous kind) p.job = (.ok o, job)) (ho : o.finished = true) :
    sweep ctx held previous (kind :: rest) p =
      ((sweep ctx held (some kind) rest { p with job }).1.map (o :: ·),
        (sweep ctx held (some kind) rest { p with job }).2) := by
  rw [sweep, h]
  simp only [ho, if_true]

theorem sweep_of_isDone (h : p.isDone kind = true) :
    sweep ctx held previous (kind :: rest) p =
      ((sweep ctx held (some kind) rest p).1.map
          (.cached ctx kind (p.job.completion.get kind) :: ·),
        (sweep ctx held (some kind) rest p).2) := by
  have hinspect : inspect ctx (listed ctx held kind) (stageChecker p.job previous kind) p.job =
      (.ok (.cached ctx kind (p.job.completion.get kind)), p.job) := if_pos h
  exact sweep_of_finished hinspect rfl

/-- A stage that the check has finished is finished for the next pass, which reports the same. -/
theorem CutShort.cons {stage : Kind} {later : Progress} {o : Outcome} (hnot : kind ∉ rest)
    (hcheck : inspect ctx (listed ctx held kind) (stageChecker p.job previous kind) p.job =
      (.ok o, job)) (hdone : o.finished = true)
    (h : CutShort ctx held (some kind) rest { p with job } stage later) :
    CutShort ctx held previous (kind :: rest) p stage later := by
  have hadvances := advances_inspect ctx (listed ctx held kind) (stageChecker p.job previous kind)
    p.job
  have hreports := completion_inspect (congrArg Prod.fst hcheck)
  have hothers : ∀ other, other ≠ kind →
      (inspect ctx (listed ctx held kind) (stageChecker p.job previous kind)
        p.job).2.completion.get other = p.job.completion.get other :=
    fun other hne => completion_inspect_of_ne ctx hne (listed ctx held kind) p.job
  rw [hcheck] at hadvances hreports hothers
  obtain ⟨before, after, rfl, hsame⟩ := h.place
  have hfirst : p.Advances { p with job } := ⟨rfl, fun h => h, hadvances⟩
  refine ⟨⟨kind :: before, after, rfl, fun other hother => ?_⟩,
    trans_of Advances hfirst h.advances, h.finished, ?_⟩
  · have hne : other ≠ kind := fun heq => hnot (heq ▸ List.mem_append_right before hother)
    exact (hsame other hother).trans (hothers other hne)
  · have hsettled : job.completion.get kind = ⟨o.started, o.finished⟩ := hreports.2
    have hmiddle : ({ p with job } : Progress).isDone kind = true :=
      (congrArg Completion.finished hsettled).trans hdone
    have hremembered : later.job.completion.get kind = ⟨o.started, o.finished⟩ :=
      (h.advances.job.done kind hmiddle).trans hsettled
    have hstate : (Outcome.cached ctx kind (later.job.completion.get kind)).state = o.state := by
      rw [hremembered]
      exact Prod.ext hreports.1.symm (congrArg (Completion.mk o.started) hdone.symm)
    rw [sweep_of_isDone (h.advances.isDone hmiddle), sweep_of_finished hcheck hdone]
    exact h.sameEnd.cons hstate

end Sweep

section Trials

variable (hshows : client.Shows held)

/-- A listing that is broken off is so for the whole progress as well. -/
theorem trial_onJob {s : Session (Chronicle κ) Progress} {act : Act (Chronicle κ) JobState α}
    {said : Except Failure α × JobState} {kind : Kind}
    (h : Trial client ctx (s.focus Progress.job) said (CutAt kind s.own.job)
      (act (s.focus Progress.job))) :
    Trial client ctx s (said.1, { s.own with job := said.2 }) (CutAt kind s.own) (onJob act s) := by
  rw [run_onJob]
  generalize act (s.focus Progress.job) = result at h
  cases h with
  | @through later h hown => exact .through h (congrArg (fun job => { s.own with job }) hown)
  | @interrupted _ e later h hcut =>
    obtain ⟨heq, hown⟩ := hcut
    have hkept : (withJob s later).own = s.own := congrArg (fun job => { s.own with job }) hown
    refine .interrupted ?_ ⟨heq, hkept⟩
    cases h with
    | refused hbefore h => exact .refused hbefore h
    | unsendable hplace haccepts h => exact .unsendable hplace haccepts h

include hshows

/-- Leftovers are recorded from what the cluster shows, up to a listing that is broken off. -/
theorem trial_seeds (kinds : List Kind) (s : Session (Chronicle κ) Progress) :
    Trial client ctx s (.ok (), { s.own with job := noteAll ctx held kinds s.own.job })
      (fun kind later => ∃ before after, kinds = before ++ kind :: after ∧
        later = { s.own with job := noteAll ctx held before s.own.job })
      (kinds.forM (fun kind => onJob (Job.seed client.recorded ctx kind)) s) := by
  induction kinds generalizing s with
  | nil => exact trial_pure () s
  | cons kind rest ih =>
    have hfirst := trial_onJob (trial_seed hshows ctx kind (s.focus Progress.job))
    refine Trial.bind (hfirst.imp ?_) fun later hlater => (?_ : Trial _ _ _ _ _ _)
    · rintro _ own ⟨rfl, rfl⟩
      exact ⟨[], rest, rfl, rfl⟩
    · have hrest := ih later
      rw [hlater] at hrest
      refine hrest.imp ?_
      rintro stage own ⟨before, after, rfl, rfl⟩
      exact ⟨kind :: before, after, rfl, rfl⟩

/-- A pass is the sweep over what the cluster shows, or cut short at a stage. -/
theorem trial_passFrom (ctx : Context) (previous : Option Kind) {kinds : List Kind}
    (hnodup : kinds.Nodup) (s : Session (Chronicle κ) Progress) :
    Trial client ctx s (sweep ctx held previous kinds s.own)
      (CutShort ctx held previous kinds s.own)
      (passFrom client.recorded ctx previous kinds s) := by
  induction kinds generalizing previous s with
  | nil => exact .through (.of_history_eq rfl) rfl
  | cons kind rest ih =>
    obtain ⟨hnot, hnodup⟩ := List.nodup_cons.mp hnodup
    have hcheck : Trial client ctx s
        ((inspect ctx (listed ctx held kind) (stageChecker s.own.job previous kind) s.own.job).1,
          { s.own with job := (inspect ctx (listed ctx held kind)
            (stageChecker s.own.job previous kind) s.own.job).2 })
        (CutAt kind s.own)
        (onJob (Job.check client.recorded ctx (stageChecker s.own.job previous kind)) s) :=
      trial_onJob (trial_check hshows _ (s.focus Progress.job))
    rw [run_passFrom_cons]
    generalize onJob (Job.check client.recorded ctx (stageChecker s.own.job previous kind)) s =
      result at hcheck
    rcases hinspect : inspect ctx (listed ctx held kind) (stageChecker s.own.job previous kind)
      s.own.job with ⟨verdict, job⟩
    rw [hinspect] at hcheck
    cases hcheck with
    | interrupted h hcut =>
      obtain ⟨rfl, hown⟩ := hcut
      exact .interrupted h (by rw [hown]; exact cutShort_refl previous _ rest s.own)
    | @through later h hown =>
      cases verdict with
      | error f =>
        rw [sweep_of_error hinspect]
        exact .through h hown
      | ok o =>
        by_cases hdone : o.finished = true
        · have hrest := ih (some kind) hnodup later
          rw [hown] at hrest
          rw [sweep_of_finished hinspect hdone]
          simp only [hdone, if_true]
          generalize passFrom client.recorded ctx (some kind) rest later = last at hrest
          cases hrest with
          | through h' hown' => exact .through (trans_of (Session.Sends _) h h') hown'
          | interrupted h' hcut => exact .interrupted (h'.after h) (hcut.cons hnot hinspect hdone)
        · rw [sweep_of_pending hinspect hdone]
          simp only [hdone, if_false, Bool.false_eq_true]
          exact .through h hown

/-- A pass that is broken off leaves the stage at fault and those behind it alone, and nothing that
would make a difference to the next one. -/
theorem trial_pass (ctx : Context) (s : Session (Chronicle κ) Progress) :
    Trial client ctx s (sweepAll ctx held s.own)
      (fun kind later => (∃ before after, s.own.chain.stages = before ++ kind :: after ∧
        ∀ stage ∈ kind :: after,
          later.job.completion.get stage = s.own.job.completion.get stage) ∧
        SameEnd (sweepAll ctx held later) (sweepAll ctx held s.own))
      (pass client.recorded ctx s) := by
  unfold pass
  rw [run_bind, run_own]
  simp only
  by_cases hfinished : s.own.finished = true
  · rw [if_pos hfinished, sweepAll, if_pos hfinished]
    exact trial_pure [] s
  have hcompletion : ∀ kinds stage, (noteAll ctx held kinds s.own.job).completion.get stage =
      s.own.job.completion.get stage :=
    fun kinds stage => congrArg (PerKind.get · stage) (completion_noteAll kinds s.own.job)
  rw [if_neg hfinished]
  refine Trial.bind ((trial_seeds hshows s.own.chain.stages s).imp ?_) fun later hlater => ?_
  · rintro kind own ⟨before, after, hsplit, rfl⟩
    refine ⟨⟨before, after, hsplit, fun stage _ => hcompletion before stage⟩, .of_eq ?_⟩
    have hnoted : noteAll ctx held (before ++ kind :: after) (noteAll ctx held before s.own.job) =
        noteAll ctx held (before ++ kind :: after) s.own.job :=
      noteAll_noteAll before (kind :: after) s.own.job
    rw [← hsplit] at hnoted
    rw [sweepAll, sweepAll, if_neg hfinished, if_neg hfinished, hnoted]
  · have hpass := trial_passFrom hshows ctx none s.own.chain.nodup_stages later
    rw [hlater] at hpass
    rw [sweepAll, if_neg hfinished]
    refine hpass.imp ?_
    rintro kind own ⟨⟨before, after, hsplit, hsame⟩, hadvances, hunfinished, hend⟩
    refine ⟨⟨before, after, hsplit, fun stage hstage => ?_⟩, ?_⟩
    · exact (hsame stage hstage).trans (hcompletion _ stage)
    · have hopen : ¬ own.finished = true := hunfinished ▸ hfinished
      have hstages : own.chain.stages = s.own.chain.stages := congrArg Chain.stages hadvances.chain
      have hnoted : noteAll ctx held own.chain.stages own.job = own.job :=
        noteAll_of_isBuilt fun stage hstage =>
          hadvances.job.isBuilt (isBuilt_noteAll (hstages ▸ hstage) _)
      rw [sweepAll, if_neg hopen, hnoted, hstages]
      exact hend

end Trials

/-- A pass meets no request error: every request is granted, and none that is due is impossible. -/
def Undisturbed (client : Client κ) (ctx : Context) (s : Session (Chronicle κ) Progress) : Prop :=
  (pass client.recorded ctx s).1 ≠ .error (.error .invalidRequest) ∧
    Session.Sends Exchange.Succeeds s (pass client.recorded ctx s).2

/-- A pass that a request error breaks off, or something that does not concern the tracker. -/
inductive Disturbance (client : Client κ) (ctx : Context) :
    Session (Chronicle κ) Progress → Session (Chronicle κ) Progress → Prop
  | pass {s : Session (Chronicle κ) Progress} (h : ¬ Undisturbed client ctx s) :
      Disturbance client ctx s (pass client.recorded ctx s).2
  | idle {s later : Session (Chronicle κ) Progress} (own : later.own = s.own) :
      Disturbance client ctx s later

theorem not_isJob_invalidRequest : ¬ (Failure.error .invalidRequest).IsJob := by
  rintro ⟨_, _, _, _, h⟩
  cases h

/-- A sweep fails for nothing but a job. -/
theorem isJob_of_sweep {previous : Option Kind} {kinds : List Kind} {p : Progress} {f : Failure}
    (h : (sweep ctx held previous kinds p).1 = .error f) : f.IsJob := by
  induction kinds generalizing previous p with
  | nil => cases h
  | cons kind rest ih =>
    rcases hinspect : inspect ctx (listed ctx held kind) (stageChecker p.job previous kind) p.job
      with ⟨g | o, job⟩
    · rw [sweep_of_error hinspect] at h
      cases h
      exact isJob_of_inspect (congrArg Prod.fst hinspect)
    · by_cases hdone : o.finished = true
      · rw [sweep_of_finished hinspect hdone] at h
        cases hrest : (sweep ctx held (some kind) rest { p with job }).1 with
        | error g =>
          rw [hrest] at h
          cases h
          exact ih hrest
        | ok outcomes =>
          rw [hrest] at h
          cases h
      · rw [sweep_of_pending hinspect hdone] at h
        cases h

theorem isJob_of_sweepAll {p : Progress} {f : Failure} (h : (sweepAll ctx held p).1 = .error f) :
    f.IsJob := by
  unfold sweepAll at h
  split at h
  · cases h
  · exact isJob_of_sweep h

/-- An undisturbed pass does what the sweep over the whole chain does. -/
theorem trial_of_undisturbed (hshows : client.Shows held) {s : Session (Chronicle κ) Progress}
    (h : Undisturbed client ctx s) :
    (pass client.recorded ctx s).1 = (sweepAll ctx held s.own).1 ∧
      (pass client.recorded ctx s).2.own = (sweepAll ctx held s.own).2 := by
  obtain ⟨hsendable, hgranted⟩ := h
  have htrial := trial_pass hshows ctx s
  generalize pass client.recorded ctx s = result at htrial hsendable hgranted
  cases htrial with
  | through _ hown => exact ⟨rfl, hown⟩
  | @interrupted kind e later hint _ =>
    have he : e ≠ .invalidRequest := fun heq => hsendable (heq ▸ rfl)
    exact absurd hgranted (hint.not_sends he)

/-- A disturbed pass fails with an error of a listing, and leaves that stage and those behind it
alone. -/
theorem interrupted_of_not_undisturbed (hshows : client.Shows held)
    {s : Session (Chronicle κ) Progress} (h : ¬ Undisturbed client ctx s) :
    (∃ before kind after e, s.own.chain.stages = before ++ kind :: after ∧
      (pass client.recorded ctx s).1 = .error (.error e) ∧
      Interrupted client ctx kind e s (pass client.recorded ctx s).2 ∧
      ∀ stage ∈ kind :: after, (pass client.recorded ctx s).2.own.job.completion.get stage =
        s.own.job.completion.get stage) ∧
    SameEnd (sweepAll ctx held (pass client.recorded ctx s).2.own) (sweepAll ctx held s.own) := by
  have htrial := trial_pass hshows ctx s
  unfold Undisturbed at h
  generalize pass client.recorded ctx s = result at htrial h
  cases htrial with
  | @through later hgranted _ =>
    refine absurd ⟨fun hresult => ?_, hgranted⟩ h
    exact not_isJob_invalidRequest (isJob_of_sweepAll hresult)
  | interrupted hint hcut =>
    obtain ⟨⟨before, after, hsplit, hsame⟩, hend⟩ := hcut
    exact ⟨⟨before, _, after, _, hsplit, rfl, hint, hsame⟩, hend⟩

theorem sameEnd_of_disturbances (hshows : client.Shows held)
    {s t : Session (Chronicle κ) Progress}
    (h : Relation.ReflTransGen (Disturbance client ctx) s t) :
    SameEnd (sweepAll ctx held t.own) (sweepAll ctx held s.own) := by
  induction h with
  | refl => exact .of_eq rfl
  | tail _ hturn ih =>
    cases hturn with
    | pass hcut => exact (interrupted_of_not_undisturbed hshows hcut).2.trans ih
    | idle hown => exact hown ▸ ih

/-- In a cluster whose watched objects stay as they are, a pass that meets a request error is
broken off at the listing of a stage, whose completion it leaves alone, and those of the stages
behind it. After any number of such passes the first one that meets no request error ends as one
at the beginning would have, in a result or for a failed job. -/
theorem interrupted_passes_are_harmless (hshows : client.Shows held) :
    (∀ s : Session (Chronicle κ) Progress, ¬ Undisturbed client ctx s →
      ∃ before kind after e, s.own.chain.stages = before ++ kind :: after ∧
        (pass client.recorded ctx s).1 = .error (.error e) ∧
        Interrupted client ctx kind e s (pass client.recorded ctx s).2 ∧
        ∀ stage ∈ kind :: after, (pass client.recorded ctx s).2.own.job.completion.get stage =
          s.own.job.completion.get stage) ∧
    (∀ s t : Session (Chronicle κ) Progress,
      Relation.ReflTransGen (Disturbance client ctx) s t → Undisturbed client ctx t →
      (∀ f, (pass client.recorded ctx t).1 = .error f → f.IsJob) ∧
      ∀ {κ' : Type} (other : Client κ') (single : Session (Chronicle κ') Progress),
        other.Shows held → single.own = s.own → Undisturbed other ctx single →
        (pass client.recorded ctx t).2.own = (pass other.recorded ctx single).2.own ∧
        (pass client.recorded ctx t).1.map (List.map Outcome.state) =
          (pass other.recorded ctx single).1.map (List.map Outcome.state)) := by
  refine ⟨fun s h => (interrupted_of_not_undisturbed hshows h).1, fun s t hpath ht => ?_⟩
  obtain ⟨hresult, hown⟩ := trial_of_undisturbed hshows ht
  refine ⟨fun f hf => isJob_of_sweepAll (hresult ▸ hf), ?_⟩
  intro κ' other single hother hsame hsingle
  obtain ⟨hresult', hown'⟩ := trial_of_undisturbed hother hsingle
  have hend := sameEnd_of_disturbances hshows hpath
  rw [← hsame] at hend
  rw [hresult, hown, hresult', hown']
  exact ⟨hend.own, hend.result⟩

/-- A pass with a result has met no request error. -/
theorem undisturbed_of_ok (hshows : client.Shows held) {s : Session (Chronicle κ) Progress}
    (h : (pass client.recorded ctx s).1.isOk = true) : Undisturbed client ctx s := by
  have htrial := trial_pass hshows ctx s
  unfold Undisturbed
  generalize pass client.recorded ctx s = result at htrial h
  cases htrial with
  | through hgranted _ =>
    refine ⟨fun hresult => ?_, hgranted⟩
    rw [hresult] at h
    cases h
  | interrupted _ _ => cases h

theorem not_undisturbed {s : Session (Chronicle κ) Progress}
    (h : ∃ e ∈ (pass client.recorded ctx s).2.history.drop s.history.length,
      e.result.isOk = false) : ¬ Undisturbed client ctx s := by
  rintro ⟨_, new, hnew, hgranted⟩
  obtain ⟨e, he, hrefused⟩ := h
  rw [hnew, List.drop_left] at he
  cases hrefused.symm.trans (hgranted e he)

def outage : Error := .api ⟨503, "ServiceUnavailable", "etcd leader changed"⟩

/-- A client that refuses the requests at some turns. -/
def faltering (held : Kind → Option String → List Object) : Client (List Bool) where
  accepts _ := true
  reply request _ turns := match request with
    | .list kind place =>
      ⟨if turns.headD false then .error outage else .ok (held kind place), 0, turns.tail⟩
    | _ => ⟨.error outage, 0, turns⟩

theorem shows_faltering (held : Kind → Option String → List Object) :
    (faltering held).Shows held := by
  intro kind place clock turns objects hreply
  simp only [faltering] at hreply
  split at hreply
  · cases hreply
  · exact (Except.ok.inj hreply).symm

def runningSnapshots : Kind → Option String → List Object
  | .snapshot, some "clusters-prod" =>
    [⟨.snapshot, ⟨"nightly-snapshot-0", some "clusters-prod"⟩, [], none, .inProgress, none⟩]
  | _, _ => []

def twoNamespaces : Context := .new "nightly" "openshift-adp" ["clusters", "clusters-prod"]

def falteringStart (turns : List Bool) : Session (Chronicle (List Bool)) Progress :=
  ⟨0, fun _ => 0, ⟨turns, []⟩, .fresh .standard⟩

/-- The first pass is broken off while leftovers of uploads are recorded, the second one between
the two namespaces of the snapshots, after the contents have finished. -/
theorem interrupted_passes_are_harmless_faltering :
    let client := faltering runningSnapshots
    let start := falteringStart [false, false, false, true, false, false, false, true]
    let first := (pass client.recorded twoNamespaces start).2
    let second := (pass client.recorded twoNamespaces first).2
    ¬ Undisturbed client twoNamespaces start ∧ ¬ Undisturbed client twoNamespaces first ∧
    second.own.isDone .snapshotContent = true ∧
    (pass client.recorded twoNamespaces second).2.own =
      (pass client.recorded twoNamespaces (falteringStart [])).2.own ∧
    (pass client.recorded twoNamespaces second).1.map (List.map Outcome.state) =
      (pass client.recorded twoNamespaces (falteringStart [])).1.map (List.map Outcome.state) := by
  intro client start first second
  have hshows : client.Shows runningSnapshots := shows_faltering runningSnapshots
  have hfirst : ¬ Undisturbed client twoNamespaces start := not_undisturbed (by decide +kernel)
  have hsecond : ¬ Undisturbed client twoNamespaces first := not_undisturbed (by decide +kernel)
  have hpath : Relation.ReflTransGen (Disturbance client twoNamespaces) start second :=
    .tail (.single (.pass hfirst)) (.pass hsecond)
  have hthird : Undisturbed client twoNamespaces second :=
    undisturbed_of_ok hshows (by decide +kernel)
  have hsingle : Undisturbed client twoNamespaces (falteringStart []) :=
    undisturbed_of_ok hshows (by decide +kernel)
  obtain ⟨_, hsame⟩ := (interrupted_passes_are_harmless hshows).2 start second hpath hthird
  exact ⟨hfirst, hsecond, by decide +kernel, hsame client (falteringStart []) hshows rfl hsingle⟩

end Progress

end BackupWatch.Job
