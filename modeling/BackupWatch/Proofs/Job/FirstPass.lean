import BackupWatch.Proofs.Job.Own
import BackupWatch.Proofs.Job.Regular
import BackupWatch.Proofs.Job.Standing

/-!
The first pass of a job on a standing cluster. What is complete by then became leftovers just before
the checks, so that a check of a stage counts the own objects that are still open, and no others.
Stages with none are taken for ones that do not take part, however many objects they have; the
first stage with one is where the pass ends.
-/

namespace BackupWatch.Job

open Act Cluster Watch

variable {κ : Type} {ctx : Context} {held : Kind → Option String → List Object}

def openIn (ctx : Context) (kind : Kind) (listing : List Object) : List Object :=
  (ownIn ctx kind listing).filter fun o => !isComplete o

def DistinctIn (kind : Kind) (listing : List Object) : Prop :=
  ((listing.filter fun o => o.kind = kind).map Object.identity).Nodup

def Outcome.absent (ctx : Context) (kind : Kind) : Outcome :=
  ⟨kind, false, true, 0, 0, ctx.expectedUnits, some .notParticipating⟩

/-- The outcome of a stage with open objects, none of which has failed, in a first pass. -/
def Outcome.underway (ctx : Context) (kind : Kind) (pending : Nat) : Outcome :=
  ⟨kind, true, false, 0, pending, ctx.expectedUnits, none⟩

section Stage

variable {kind : Kind} {listing : List Object}

theorem eq_nil_openIn_iff :
    openIn ctx kind listing = [] ↔ ∀ o ∈ ownIn ctx kind listing, o.phase = .completed := by
  simp [openIn, isComplete]

theorem kind_of_mem_ownIn {o : Object} (h : o ∈ ownIn ctx kind listing) : o.kind = kind := by
  have hown := (List.mem_filter.mp h).2
  simp only [isOwn, Bool.and_eq_true, beq_iff_eq] at hown
  exact hown.1.1

theorem isComplete_of_mem_openIn {o : Object} (h : o ∈ openIn ctx kind listing) :
    isComplete o = false := by
  simpa using (List.mem_filter.mp h).2

theorem DistinctIn.eq_of_identity_eq (h : DistinctIn kind listing) {o other : Object}
    (ho : o ∈ listing) (hkind : o.kind = kind) (hother : other ∈ listing)
    (hkind' : other.kind = kind) (hsame : o.identity = other.identity) : o = other :=
  List.inj_on_of_nodup_map h (List.mem_filter.mpr ⟨ho, by simpa using hkind⟩)
    (List.mem_filter.mpr ⟨hother, by simpa using hkind'⟩) hsame

/-- With the complete objects of the listing for leftovers, the open ones are those that count. -/
theorem relevantIn_eq_openIn {leftovers : Leftovers} (hdistinct : DistinctIn kind listing)
    (hleftovers : leftovers.entries.get kind = some (Leftovers.completedIn kind listing)) :
    relevantIn kind ctx leftovers listing = openIn ctx kind listing := by
  rw [relevantIn_eq_filter_ownIn, openIn]
  refine List.filter_congr fun o ho => congrArg (! ·) ?_
  have hmem : o ∈ listing := (List.mem_filter.mp ho).1
  have hkind : o.kind = kind := kind_of_mem_ownIn ho
  simp only [Leftovers.contains, hleftovers]
  rw [Bool.eq_iff_iff, List.contains_iff_mem, Leftovers.mem_completedIn]
  constructor
  · rintro ⟨other, hother, hkind', hphase, hsame⟩
    obtain rfl := hdistinct.eq_of_identity_eq hother hkind' hmem hkind hsame
    simpa [isComplete] using hphase
  · intro hcomplete
    exact ⟨o, hmem, hkind, by simpa [isComplete] using hcomplete, rfl⟩

/-- The leftovers of a kind are those of a listing, and the kind has not been checked. -/
structure JobState.Unchecked (job : JobState) (kind : Kind) (listing : List Object) : Prop where
  leftovers : job.leftovers.entries.get kind = some (Leftovers.completedIn kind listing)
  untouched : job.Untouched kind

theorem JobState.Unchecked.isBuilt {job : JobState} (h : job.Unchecked kind listing) :
    job.leftovers.isBuilt kind = true := by
  rw [Leftovers.isBuilt, h.leftovers]
  rfl

/-- With none failed, all open objects are pending. -/
theorem tally_openIn (h : (openIn ctx kind listing).find? hasFailed = none) :
    Tally.of (openIn ctx kind listing) =
      ⟨(openIn ctx kind listing).length, 0, (openIn ctx kind listing).length⟩ := by
  have hcomplete : (openIn ctx kind listing).countP isComplete = 0 := by
    refine List.countP_eq_zero.mpr fun o ho => ?_
    rw [isComplete_of_mem_openIn ho]
    exact Bool.false_ne_true
  have hpending : (openIn ctx kind listing).countP isPending =
      (openIn ctx kind listing).length := by
    refine List.countP_eq_length.mpr fun o ho => ?_
    have hstill := isComplete_of_mem_openIn ho
    have hnot := List.find?_eq_none.mp h o ho
    unfold isComplete at hstill
    unfold hasFailed at hnot
    unfold isPending
    cases hphase : o.phase <;> simp_all
  rw [Tally.of, hcomplete, hpending]

/-- The verdict on a stage whose objects are seen for the first time. -/
theorem verdict_openIn {job : JobState} (hjob : job.Untouched kind)
    (h : (openIn ctx kind listing).find? hasFailed = none) :
    job.verdict ctx ⟨kind, true⟩ (.of (openIn ctx kind listing)) =
      if openIn ctx kind listing = [] then .absent ctx kind
      else .underway ctx kind (openIn ctx kind listing).length := by
  rw [tally_openIn h]
  have hstarted : (job.completion.get kind).started = false := by rw [hjob]
  have hexpected : 0 ≠ ctx.expectedUnits := Nat.ne_of_lt ctx.expectedUnits_pos
  unfold JobState.verdict judge
  simp only [hstarted, List.length_eq_zero_iff]
  split
  · next hnone =>
    rw [hnone]
    rfl
  · rfl

theorem inspect_unchecked (ctx : Context) {job : JobState} (hdistinct : DistinctIn kind listing)
    (hjob : job.Unchecked kind listing) :
    inspect ctx listing ⟨kind, true⟩ job =
      match (openIn ctx kind listing).find? hasFailed with
      | some o => (.error (.error (failure o)), job)
      | none => (.ok (job.verdict ctx ⟨kind, true⟩ (.of (openIn ctx kind listing))),
          job.settle (job.verdict ctx ⟨kind, true⟩ (.of (openIn ctx kind listing)))) := by
  have hopen : (job.completion.get kind).finished = false := by rw [hjob.untouched]
  rw [← relevantIn_eq_openIn hdistinct hjob.leftovers]
  exact inspect_of_isBuilt listing hopen hjob.isBuilt

end Stage

/-- The job when some stages have been found without open objects. -/
def JobState.skip (ctx : Context) (stages : List Kind) (job : JobState) : JobState :=
  stages.foldl (fun job stage => job.settle (.absent ctx stage)) job

/-- Stages without open objects are taken not to take part, and the others are left alone. -/
theorem JobState.completion_skip (stages : List Kind) (job : JobState) (kind : Kind) :
    (job.skip ctx stages).completion.get kind =
      if kind ∈ stages then ⟨false, true⟩ else job.completion.get kind := by
  induction stages generalizing job with
  | nil => rfl
  | cons stage rest ih =>
    refine (ih (job.settle (.absent ctx stage))).trans ?_
    have hsettled : (job.settle (.absent ctx stage)).completion.get kind =
        if kind = stage then ⟨false, true⟩ else job.completion.get kind :=
      PerKind.get_set ..
    rw [hsettled]
    by_cases hrest : kind ∈ rest <;> simp [hrest]

/-- Recording leftovers of kinds that have none yet takes them from what is listed. -/
theorem unchecked_noteAll {kinds : List Kind} {kind : Kind} (h : kind ∈ kinds) (job : JobState)
    (hnone : job.leftovers.entries.get kind = none) (hjob : job.Untouched kind) :
    (noteAll ctx held kinds job).Unchecked kind (listed ctx held kind) := by
  induction kinds generalizing job with
  | nil => cases h
  | cons first rest ih =>
    by_cases hfirst : kind = first
    · subst hfirst
      have hnoted : (job.note kind (listed ctx held kind)).leftovers.entries.get kind =
          some (Leftovers.completedIn kind (listed ctx held kind)) := by
        rw [JobState.entries_note, if_pos rfl, hnone]
        rfl
      have hbuilt : (job.note kind (listed ctx held kind)).leftovers.isBuilt kind = true := by
        rw [Leftovers.isBuilt, hnoted]
        rfl
      refine ⟨((advances_noteAll rest _).leftovers kind hbuilt).trans hnoted, ?_⟩
      exact (congrArg (PerKind.get · kind) (completion_noteAll (kind :: rest) job)).trans hjob
    · have hrest : kind ∈ rest := (List.mem_cons.mp h).resolve_left hfirst
      refine ih hrest (job.note first (listed ctx held first)) ?_ hjob
      rw [JobState.entries_note, if_neg hfirst]
      exact hnone

namespace Progress

/-- A first pass comes to some stages: the one before them had no objects, and the stages have their
leftovers from what is listed, but have not been checked. -/
structure Entering (ctx : Context) (held : Kind → Option String → List Object)
    (previous : Option Kind) (kinds : List Kind) (p : Progress) : Prop where
  previous : (previous.all fun before => !(p.job.completion.get before).started) = true
  unchecked : ∀ kind ∈ kinds, p.job.Unchecked kind (listed ctx held kind)

section Sweep

variable {previous : Option Kind} {before kinds rest : List Kind} {kind : Kind} {p : Progress}

theorem Entering.checker (h : Entering ctx held previous kinds p) (kind : Kind) :
    stageChecker p.job previous kind = ⟨kind, true⟩ := by
  rw [stageChecker, h.previous]

theorem Entering.next (h : Entering ctx held previous (kind :: rest) p) (hnot : kind ∉ rest) :
    Entering ctx held (some kind) rest
      { p with job := p.job.settle (.absent ctx kind) } := by
  refine ⟨?_, fun other hother => ?_⟩
  · simp [JobState.settle, Outcome.absent]
  · have hne : other ≠ kind := fun heq => hnot (heq ▸ hother)
    obtain ⟨hleftovers, huntouched⟩ := h.unchecked other (List.mem_cons_of_mem kind hother)
    exact ⟨hleftovers, (PerKind.get_set_of_ne _ _ hne).trans huntouched⟩

/-- A stage without open objects finishes, and the sweep goes on. -/
theorem sweep_of_absent (h : Entering ctx held previous (kind :: rest) p)
    (hdistinct : DistinctIn kind (listed ctx held kind))
    (hnone : openIn ctx kind (listed ctx held kind) = []) :
    sweep ctx held previous (kind :: rest) p =
      ((sweep ctx held (some kind) rest
          { p with job := p.job.settle (.absent ctx kind) }).1.map (.absent ctx kind :: ·),
        (sweep ctx held (some kind) rest { p with job := p.job.settle (.absent ctx kind) }).2) := by
  have hunchecked := h.unchecked kind (List.mem_cons_self ..)
  have hnofail : (openIn ctx kind (listed ctx held kind)).find? hasFailed = none := by
    rw [hnone]
    rfl
  have hinspect := inspect_unchecked ctx hdistinct hunchecked
  rw [hnofail, verdict_openIn hunchecked.untouched hnofail, if_pos hnone] at hinspect
  rw [← h.checker kind] at hinspect
  exact sweep_of_finished hinspect rfl

/-- A first pass comes through stages without open objects. -/
theorem sweep_of_all_absent (hnodup : (before ++ kinds).Nodup)
    (hdistinct : ∀ stage ∈ before, DistinctIn stage (listed ctx held stage))
    (hnone : ∀ stage ∈ before, openIn ctx stage (listed ctx held stage) = [])
    (h : Entering ctx held previous (before ++ kinds) p) :
    ∃ last, Entering ctx held last kinds { p with job := p.job.skip ctx before } ∧
      ∀ result later,
        sweep ctx held last kinds { p with job := p.job.skip ctx before } = (result, later) →
        sweep ctx held previous (before ++ kinds) p =
          (result.map (before.map (.absent ctx) ++ ·), later) := by
  induction before generalizing previous p with
  | nil =>
    refine ⟨previous, h, fun result later hsweep => ?_⟩
    cases result <;> exact hsweep
  | cons first before ih =>
    rw [List.cons_append] at hnodup h ⊢
    obtain ⟨hnot, hnodup⟩ := List.nodup_cons.mp hnodup
    obtain ⟨last, hentering, hrest⟩ := ih hnodup
      (fun stage hstage => hdistinct stage (List.mem_cons_of_mem first hstage))
      (fun stage hstage => hnone stage (List.mem_cons_of_mem first hstage)) (h.next hnot)
    have hfirst : first ∈ first :: before := List.mem_cons_self ..
    refine ⟨last, hentering, fun result later hsweep => ?_⟩
    rw [sweep_of_absent h (hdistinct first hfirst) (hnone first hfirst), hrest result later hsweep]
    cases result <;> rfl

end Sweep

/-- What a pass over some stages has found when `kind` is the first of them with open objects. -/
structure StopsAt (ctx : Context) (before : List Kind) (kind : Kind) (still : List Object)
    (result : Except Failure (List Outcome)) (later : Progress) : Prop where
  /-- The stages before it are taken not to take part. -/
  absent : ∀ stage ∈ before, later.job.completion.get stage = ⟨false, true⟩
  unfinished : later.finished = false
  /-- The first open object that has failed is named, if there is one. -/
  failed : ∀ o, still.find? hasFailed = some o →
    result = .error (.error (.jobFailed kind o.identity.text o.phase.text o.message))
  underway : (∀ o ∈ still, o.phase ≠ .failed) →
    result = .ok (before.map (.absent ctx) ++ [.underway ctx kind still.length])

theorem StopsAt.result_eq {before : List Kind} {kind : Kind} {still : List Object}
    {result : Except Failure (List Outcome)} {later : Progress}
    (h : StopsAt ctx before kind still result later) {outcomes : List Outcome}
    (hok : result = .ok outcomes) :
    outcomes = before.map (.absent ctx) ++ [.underway ctx kind still.length] := by
  cases hfind : still.find? hasFailed with
  | some o => cases hok.symm.trans (h.failed o hfind)
  | none =>
    have hnofail : ∀ o ∈ still, o.phase ≠ .failed := by
      simpa [hasFailed] using List.find?_eq_none.mp hfind
    exact Except.ok.inj (hok.symm.trans (h.underway hnofail))

def primed (ctx : Context) (held : Kind → Option String → List Object) (chain : Chain) : Progress :=
  ⟨chain, false, noteAll ctx held chain.stages .fresh⟩

theorem sweepAll_fresh (chain : Chain) :
    sweepAll ctx held (fresh chain) =
      sweep ctx held none chain.stages (primed ctx held chain) := rfl

theorem entering_primed (ctx : Context) (held : Kind → Option String → List Object)
    (chain : Chain) :
    Entering ctx held none chain.stages (primed ctx held chain) := by
  refine ⟨rfl, fun kind hkind => unchecked_noteAll hkind .fresh ?_ ?_⟩
  · exact PerKind.get_same none kind
  · exact PerKind.get_same (Completion.mk false false) kind

variable {chain : Chain} {before after : List Kind} {kind : Kind}

/-- Either no stage has open objects, or there is a first one that has. -/
theorem none_open_or_exists_first (ctx : Context) (held : Kind → Option String → List Object)
    (kinds : List Kind) :
    (∀ kind ∈ kinds, openIn ctx kind (listed ctx held kind) = []) ∨
      ∃ before kind after, kinds = before ++ kind :: after ∧
        (∀ stage ∈ before, openIn ctx stage (listed ctx held stage) = []) ∧
        openIn ctx kind (listed ctx held kind) ≠ [] := by
  induction kinds with
  | nil => exact Or.inl (by simp)
  | cons first rest ih =>
    by_cases hfirst : openIn ctx first (listed ctx held first) = []
    · rcases ih with hall | ⟨before, kind, after, rfl, hbefore, hopen⟩
      · exact Or.inl (List.forall_mem_cons.mpr ⟨hfirst, hall⟩)
      · exact Or.inr ⟨first :: before, kind, after, rfl,
          List.forall_mem_cons.mpr ⟨hfirst, hbefore⟩, hopen⟩
    · exact Or.inr ⟨[], first, rest, rfl, by simp, hfirst⟩

/-- If no stage has open objects, a first pass finishes them all at once. -/
theorem sweepAll_of_none_open
    (hdistinct : ∀ kind ∈ chain.stages, DistinctIn kind (listed ctx held kind))
    (hnone : ∀ kind ∈ chain.stages, openIn ctx kind (listed ctx held kind) = []) :
    (sweepAll ctx held (fresh chain)).1 = .ok (chain.stages.map (.absent ctx)) ∧
      (sweepAll ctx held (fresh chain)).2.finished = true := by
  have hstages : chain.stages ++ [] = chain.stages := List.append_nil _
  have hnodup := chain.nodup_stages
  have hentering := entering_primed ctx held chain
  rw [← hstages] at hnodup hentering
  obtain ⟨last, _, hsweep⟩ := sweep_of_all_absent hnodup hdistinct hnone hentering
  rw [sweepAll_fresh, ← hstages, hsweep _ _ rfl, hstages]
  exact ⟨congrArg Except.ok (List.append_nil _), rfl⟩

/-- A first pass stops at the first stage with open objects. -/
theorem sweepAll_of_first_open
    (hdistinct : ∀ kind ∈ chain.stages, DistinctIn kind (listed ctx held kind))
    (hchain : chain.stages = before ++ kind :: after)
    (hnone : ∀ stage ∈ before, openIn ctx stage (listed ctx held stage) = [])
    (hopen : openIn ctx kind (listed ctx held kind) ≠ []) :
    StopsAt ctx before kind (openIn ctx kind (listed ctx held kind))
      (sweepAll ctx held (fresh chain)).1 (sweepAll ctx held (fresh chain)).2 := by
  have hnodup := chain.nodup_stages
  have hentering := entering_primed ctx held chain
  rw [hchain] at hnodup hentering hdistinct
  have hmem : kind ∈ before ++ kind :: after := List.mem_append_right before (List.mem_cons_self ..)
  have hbefore : ∀ stage ∈ before, DistinctIn stage (listed ctx held stage) :=
    fun stage hstage => hdistinct stage (List.mem_append_left _ hstage)
  obtain ⟨last, hat, hsweep⟩ := sweep_of_all_absent hnodup hbefore hnone hentering
  have hunchecked := hat.unchecked kind (List.mem_cons_self ..)
  have hinspect := inspect_unchecked ctx (hdistinct kind hmem) hunchecked
  rw [← hat.checker kind] at hinspect
  rw [sweepAll_fresh, hchain]
  have hskipped : ∀ stage ∈ before,
      ((primed ctx held chain).job.skip ctx before).completion.get stage = ⟨false, true⟩ :=
    fun stage hstage => (JobState.completion_skip ..).trans (if_pos hstage)
  cases hfind : (openIn ctx kind (listed ctx held kind)).find? hasFailed with
  | some o =>
    have hmem := List.mem_of_find?_eq_some hfind
    have hkind : o.kind = kind := kind_of_mem_ownIn (List.mem_filter.mp hmem).1
    rw [hfind] at hinspect
    rw [hsweep _ _ (sweep_of_error hinspect)]
    refine ⟨hskipped, rfl, fun other hother => ?_, fun hnot => ?_⟩
    · obtain rfl := Option.some.inj (hfind.symm.trans hother)
      rw [← hkind]
      rfl
    · have hfailed : o.phase = .failed := by simpa [hasFailed] using List.find?_some hfind
      exact absurd hfailed (hnot o hmem)
  | none =>
    rw [hfind, hat.checker kind] at hinspect
    simp only [verdict_openIn hunchecked.untouched hfind, if_neg hopen] at hinspect
    rw [← hat.checker kind] at hinspect
    rw [hsweep _ _ (sweep_of_pending hinspect Bool.false_ne_true)]
    refine ⟨fun stage hstage => ?_, rfl, fun o ho => ?_, fun _ => rfl⟩
    · have hne : stage ≠ kind := by
        rintro rfl
        exact (List.nodup_append.mp hnodup).2.2 stage hstage stage (List.mem_cons_self ..) rfl
      exact (PerKind.get_set_of_ne _ _ hne).trans (hskipped stage hstage)
    · cases hfind.symm.trans ho

end Progress
end BackupWatch.Job
