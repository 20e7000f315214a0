import BackupWatch.Proofs.Job.Progress

/-!
The order of a chain. Completions change in checks alone, and a check is made of a stage only
once those before it have finished. Hence the stages behind an unfinished one are untouched, a
stage behind one that has started does not finish before it has started itself, and kinds that
are no stage of the chain stay as they were.
-/

namespace BackupWatch.Job

open Act Cluster Watch

variable {κ : Type} {client : Client κ} {ctx : Context}

def JobState.Untouched (job : JobState) (kind : Kind) : Prop :=
  job.completion.get kind = ⟨false, false⟩

theorem Chain.nodup_stages (chain : Chain) : chain.stages.Nodup := by
  cases chain <;> decide

/-- A kind that may not stay empty has to start before it finishes. -/
theorem JobState.started_of_verdict_finished {job : JobState} {checker : Checker} {t : Tally}
    (hfed : checker.mayStayEmpty = false) (h : (job.verdict ctx checker t).finished = true) :
    (job.verdict ctx checker t).started = true := by
  unfold verdict judge at h ⊢
  by_cases hnone : t.relevant = 0
  · rw [if_pos hnone] at h ⊢
    cases hstarted : (job.completion.get checker.kind).started with
    | true => rfl
    | false => simp [hstarted, hfed] at h
  · rw [if_neg hnone]

theorem Seeding.completion {kind : Kind} {s : Session κ JobState}
    {result : Except Failure Unit × Session κ JobState} (h : Seeding client ctx kind s result) :
    result.2.own.completion = s.own.completion := by
  cases h with
  | built _ => rfl
  | refused _ _ hown => rw [hown]
  | listed _ _ _ => rfl

/-- A check changes the completion of its kind alone, and as its verdict says. -/
theorem Checking.completion {checker : Checker} {s : Session κ JobState}
    {result : Except Failure Outcome × Session κ JobState}
    (h : Checking client ctx checker s result) :
    result.2.own.completion = s.own.completion ∨
      (s.own.completion.get checker.kind).finished = false ∧
      ∃ t, result.1 = .ok (s.own.verdict ctx checker t) ∧
        result.2.own.completion = (s.own.settle (s.own.verdict ctx checker t)).completion := by
  cases h with
  | cached _ => exact Or.inl rfl
  | refused _ _ hown => exact Or.inl (congrArg JobState.completion hown)
  | failed _ _ _ _ => exact Or.inl rfl
  | counted hopen _ _ _ hverdict =>
    subst hverdict
    exact Or.inr ⟨hopen, _, rfl, rfl⟩

structure JobState.SameAt (kind : Kind) (job later : JobState) : Prop where
  completion : later.completion.get kind = job.completion.get kind
  leftovers : later.leftovers.entries.get kind = job.leftovers.entries.get kind

theorem JobState.sameAt_note (job : JobState) {kind other : Kind} (hne : other ≠ kind)
    (listing : List Object) : SameAt other job (job.note kind listing) := by
  refine ⟨rfl, ?_⟩
  unfold note Leftovers.record
  split
  · rfl
  · exact PerKind.get_set_of_ne _ _ hne

theorem Seeding.sameAt {kind other : Kind} {s : Session κ JobState}
    {result : Except Failure Unit × Session κ JobState} (h : Seeding client ctx kind s result)
    (hne : other ≠ kind) : JobState.SameAt other s.own result.2.own := by
  cases h with
  | built _ => exact ⟨rfl, rfl⟩
  | refused _ _ hown => exact hown ▸ ⟨rfl, rfl⟩
  | listed _ _ _ => exact JobState.sameAt_note s.own hne _

/-- Of another kind a check learns nothing. -/
theorem Checking.sameAt {checker : Checker} {other : Kind} {s : Session κ JobState}
    {result : Except Failure Outcome × Session κ JobState}
    (h : Checking client ctx checker s result) (hne : other ≠ checker.kind) :
    JobState.SameAt other s.own result.2.own := by
  cases h with
  | cached _ => exact ⟨rfl, rfl⟩
  | refused _ _ hown => exact hown ▸ ⟨rfl, rfl⟩
  | failed _ _ _ _ => exact JobState.sameAt_note s.own hne _
  | counted _ _ _ _ hverdict =>
    refine ⟨?_, (JobState.sameAt_note s.own hne _).leftovers⟩
    subst hverdict
    exact PerKind.get_set_of_ne _ _ hne

namespace Progress

/-- Kinds that are no stage stay as they are. -/
theorem Step.sameAt {s later : Session κ Progress} (h : Step client ctx s later) {kind : Kind}
    (hkind : kind ∉ s.own.chain.stages) : JobState.SameAt kind s.own.job later.own.job := by
  cases h with
  | pass millis => exact ⟨rfl, rfl⟩
  | seed hmem =>
    refine (seeding client ctx _ (s.focus Progress.job)).sameAt ?_
    rintro rfl
    exact hkind hmem
  | check hat =>
    refine (checking client ctx _ (s.focus Progress.job)).sameAt ?_
    rintro rfl
    exact hkind hat.mem_stages
  | finish _ => exact ⟨rfl, rfl⟩

def hasStarted (p : Progress) (kind : Kind) : Bool := (p.job.completion.get kind).started

/-- The stage whose check a step has decided, with those before and behind it. -/
structure Decides (ctx : Context) (p later : Progress) (before : List Kind) (kind : Kind)
    (after : List Kind) (o : Outcome) : Prop where
  at_stage : p.AtStage before (kind :: after)
  unfinished : p.isDone kind = false
  outcome : ∃ t, o = p.job.verdict ctx (p.checkerAt before kind) t
  completion : later.job.completion = (p.job.settle o).completion

/-- A step leaves the completions alone or decides on one stage. -/
theorem Step.completion {s later : Session κ Progress} (h : Step client ctx s later) :
    later.own.job.completion = s.own.job.completion ∨
      ∃ before kind after o, Decides ctx s.own later.own before kind after o := by
  cases h with
  | pass millis => exact Or.inl rfl
  | seed _ => exact Or.inl (seeding client ctx _ (s.focus Progress.job)).completion
  | @check before after kind hat =>
    rcases (checking client ctx (s.own.checkerAt before kind) (s.focus Progress.job)).completion
      with hsame | ⟨hopen, t, _, hsettled⟩
    · exact Or.inl hsame
    · exact Or.inr ⟨before, kind, after, _, hat, hopen, ⟨t, rfl⟩, hsettled⟩
  | finish _ => exact Or.inl rfl

section Decides

variable {p later : Progress} {before after : List Kind} {kind other : Kind} {o : Outcome}

theorem Decides.kind_eq (h : Decides ctx p later before kind after o) : o.kind = kind := by
  obtain ⟨t, rfl⟩ := h.outcome
  rfl

theorem Decides.get_self (h : Decides ctx p later before kind after o) :
    later.job.completion.get kind = ⟨o.started, o.finished⟩ := by
  rw [h.completion, ← h.kind_eq, JobState.settle, PerKind.get_set_self]

theorem Decides.get_of_ne (h : Decides ctx p later before kind after o) (hne : other ≠ kind) :
    later.job.completion.get other = p.job.completion.get other := by
  rw [h.completion, JobState.settle, h.kind_eq, PerKind.get_set_of_ne _ _ hne]

theorem Decides.nodup (h : Decides ctx p later before kind after o) :
    kind ∉ before ∧ kind ∉ after := by
  have hnodup := p.chain.nodup_stages
  rw [h.at_stage.stages, List.nodup_append, List.nodup_cons] at hnodup
  exact ⟨fun hmem => hnodup.2.2 kind hmem kind (List.mem_cons_self ..) rfl, hnodup.2.1.1⟩

/-- A stage behind the one that is decided on is another. -/
theorem Decides.get_after (h : Decides ctx p later before kind after o) (hmem : other ∈ after) :
    later.job.completion.get other = p.job.completion.get other :=
  h.get_of_ne fun heq => h.nodup.2 (heq ▸ hmem)

theorem Decides.get_before (h : Decides ctx p later before kind after o) (hmem : other ∈ before) :
    later.job.completion.get other = p.job.completion.get other :=
  h.get_of_ne fun heq => h.nodup.1 (heq ▸ hmem)

end Decides

/-- What stands behind an unfinished stage is untouched. -/
def InOrder (p : Progress) : Prop :=
  p.chain.stages.Pairwise fun first second =>
    p.isDone first = false → p.job.Untouched second

/-- What stands behind a stage that has started does not finish without having started. -/
def Fed (p : Progress) : Prop :=
  p.chain.stages.Pairwise fun first second =>
    p.hasStarted first = true → p.isDone second = true → p.hasStarted second = true

theorem not_isDone_of_untouched {p : Progress} {kind : Kind} (h : p.job.Untouched kind) :
    p.isDone kind = false := by
  rw [isDone, h]

theorem inOrder_congr {p later : Progress} (hchain : later.chain = p.chain)
    (hsame : later.job.completion = p.job.completion) : later.InOrder ↔ p.InOrder := by
  simp only [InOrder, isDone, JobState.Untouched, hchain, hsame]

theorem fed_congr {p later : Progress} (hchain : later.chain = p.chain)
    (hsame : later.job.completion = p.job.completion) : later.Fed ↔ p.Fed := by
  simp only [Fed, isDone, hasStarted, hchain, hsame]

theorem inOrder_fresh (chain : Chain) : (fresh chain).InOrder :=
  List.pairwise_of_forall fun _ second _ => PerKind.get_same _ second

theorem fed_fresh (chain : Chain) : (fresh chain).Fed :=
  List.pairwise_of_forall fun first _ hstarted => by
    simp [hasStarted, fresh, JobState.fresh] at hstarted

section Place

variable {p later : Progress} {before after : List Kind} {kind : Kind} {o : Outcome}

/-- Where a stage is unfinished, all that is behind it is untouched. -/
theorem InOrder.untouched (h : p.InOrder) (hstages : p.chain.stages = before ++ kind :: after)
    (hopen : p.isDone kind = false) : ∀ other ∈ after, p.job.Untouched other := by
  intro other hother
  rw [InOrder, hstages, List.pairwise_append, List.pairwise_cons] at h
  exact h.2.1.1 other hother hopen

theorem Decides.untouched (h : Decides ctx p later before kind after o) (horder : p.InOrder) :
    ∀ other ∈ after, later.job.Untouched other := by
  intro other hother
  rw [JobState.Untouched, h.get_after hother]
  exact horder.untouched h.at_stage.stages h.unfinished other hother

theorem Decides.isDone_before (h : Decides ctx p later before kind after o) :
    ∀ other ∈ before, later.isDone other = true := by
  intro other hother
  rw [isDone, h.get_before hother]
  exact h.at_stage.done other hother

/-- What stands behind the stage that was decided is still untouched. -/
theorem Decides.inOrder (h : Decides ctx p later before kind after o)
    (hchain : later.chain = p.chain) (horder : p.InOrder) : later.InOrder := by
  rw [InOrder, hchain, h.at_stage.stages, List.pairwise_append, List.pairwise_cons]
  have hbehind := h.untouched horder
  refine ⟨?_, ⟨fun other hother _ => hbehind other hother, ?_⟩, ?_⟩
  · refine List.pairwise_of_forall_mem_list fun first hfirst _ _ hopen => ?_
    rw [h.isDone_before first hfirst] at hopen
    cases hopen
  · exact List.pairwise_of_forall_mem_list fun _ _ second hsecond _ => hbehind second hsecond
  · intro first hfirst second _ hopen
    rw [h.isDone_before first hfirst] at hopen
    cases hopen

/-- The stage before the last of some stages that started has started, too. -/
theorem Fed.hasStarted_last (h : p.Fed) {last : Kind} (hstages : p.chain.stages = before ++ after)
    (hlast : before.getLast? = some last) (hdone : p.isDone last = true) {first : Kind}
    (hfirst : first ∈ before) (hstarted : p.hasStarted first = true) :
    p.hasStarted last = true := by
  obtain ⟨init, rfl⟩ := List.getLast?_eq_some_iff.mp hlast
  rcases List.mem_append.mp hfirst with hinit | hsame
  · rw [Fed, hstages, List.pairwise_append, List.pairwise_append] at h
    exact h.1.2.2 first hinit last (List.mem_singleton_self last) hstarted hdone
  · exact List.mem_singleton.mp hsame ▸ hstarted

/-- The permission to stay empty is given by the stage before alone; that this one has started
follows for every stage that has. -/
theorem Decides.hasStarted (h : Decides ctx p later before kind after o) (hfed : p.Fed)
    {first : Kind} (hfirst : first ∈ before) (hstarted : p.hasStarted first = true)
    (hdone : o.finished = true) : o.started = true := by
  obtain ⟨t, rfl⟩ := h.outcome
  refine JobState.started_of_verdict_finished ?_ hdone
  obtain ⟨last, hlast⟩ := Option.isSome_iff_exists.mp
    (List.getLast?_isSome.mpr (List.ne_nil_of_mem hfirst))
  have hlast' := hfed.hasStarted_last h.at_stage.stages hlast
    (h.at_stage.done last (List.mem_of_getLast? hlast)) hfirst hstarted
  rw [checkerAt, stageChecker, hlast]
  simpa [Progress.hasStarted] using hlast'

/-- The stage that was decided may stay empty only if the one before it has. -/
theorem Decides.fed (h : Decides ctx p later before kind after o)
    (hchain : later.chain = p.chain) (horder : p.InOrder) (hfed : p.Fed) : later.Fed := by
  have hbehind := h.untouched horder
  have hnone : ∀ other ∈ after, later.isDone other = true → later.hasStarted other = true := by
    intro other hother hdone
    rw [not_isDone_of_untouched (hbehind other hother)] at hdone
    cases hdone
  have hold := hfed
  rw [Fed, h.at_stage.stages, List.pairwise_append] at hold
  rw [Fed, hchain, h.at_stage.stages, List.pairwise_append, List.pairwise_cons]
  refine ⟨?_, ⟨fun other hother _ => hnone other hother, ?_⟩, ?_⟩
  · refine hold.1.imp_of_mem fun {first second} hfirst hsecond hpair => ?_
    rwa [Progress.hasStarted, Progress.hasStarted, isDone, h.get_before hfirst,
      h.get_before hsecond]
  · exact List.pairwise_of_forall_mem_list fun _ _ second hsecond _ => hnone second hsecond
  · intro first hfirst second hsecond hstarted
    rw [Progress.hasStarted, h.get_before hfirst] at hstarted
    rcases List.mem_cons.mp hsecond with rfl | hmem
    · rw [isDone, Progress.hasStarted, h.get_self]
      exact h.hasStarted hfed hfirst hstarted
    · exact hnone second hmem

end Place

theorem Step.inOrder {s later : Session κ Progress} (h : Step client ctx s later)
    (horder : s.own.InOrder) : later.own.InOrder := by
  rcases h.completion with hsame | ⟨_, _, _, _, hdecides⟩
  · exact (inOrder_congr h.advances.chain hsame).mpr horder
  · exact hdecides.inOrder h.advances.chain horder

theorem Step.fed {s later : Session κ Progress} (h : Step client ctx s later)
    (horder : s.own.InOrder) (hfed : s.own.Fed) : later.own.Fed := by
  rcases h.completion with hsame | ⟨_, _, _, _, hdecides⟩
  · exact (fed_congr h.advances.chain hsame).mpr hfed
  · exact hdecides.fed h.advances.chain horder hfed

end Progress
end BackupWatch.Job
