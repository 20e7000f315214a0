import BackupWatch.Job.Check

/-!
What a count makes of a listing, said without the count: it fails with the first relevant object
that has failed, and otherwise gives the numbers of the relevant objects by phase. A verdict
finishes a kind only on the expected number of complete objects or on none that are relevant.
-/

namespace BackupWatch.Job

open Watch

def relevantIn (kind : Kind) (ctx : Context) (leftovers : Leftovers) (listing : List Object) :
    List Object :=
  listing.filter (isRelevant kind ctx leftovers)

def hasFailed (o : Object) : Bool := o.phase = .failed

def isComplete (o : Object) : Bool := o.phase = .completed

def isPending (o : Object) : Bool := o.phase = .new ∨ o.phase = .inProgress

/-- The tally of relevant objects, none of which has failed. -/
def Tally.of (objects : List Object) : Tally :=
  ⟨objects.length, objects.countP isComplete, objects.countP isPending⟩

/-- The fold stops at the first Failed object; without one it adds up the three counts. -/
theorem Tally.foldlM_add (objects : List Object) (t : Tally) :
    objects.foldlM Tally.add t =
      match objects.find? hasFailed with
      | some o => .error (failure o)
      | none => .ok ⟨t.relevant + objects.length, t.completed + objects.countP isComplete,
          t.pending + objects.countP isPending⟩ := by
  induction objects generalizing t with
  | nil => rfl
  | cons o rest ih =>
    rw [List.foldlM_cons]
    have hfirst : o.phase = .failed ∨ hasFailed o = false ∧ t.add o = .ok
        ⟨t.relevant + 1, t.completed + (if isComplete o then 1 else 0),
          t.pending + (if isPending o then 1 else 0)⟩ := by
      unfold Tally.add hasFailed isComplete isPending
      cases o.phase <;> simp
    rcases hfirst with hfailed | ⟨hnot, hadd⟩
    · have hadd : t.add o = .error (failure o) := by simp [Tally.add, hfailed]
      have hhead : hasFailed o = true := by simp [hasFailed, hfailed]
      rw [hadd, List.find?_cons_of_pos hhead]
      rfl
    · have hnot' : ¬ hasFailed o = true := by simp [hnot]
      rw [hadd, List.find?_cons_of_neg hnot']
      change rest.foldlM Tally.add _ = _
      rw [ih]
      cases rest.find? hasFailed with
      | some failed => rfl
      | none =>
        simp only [List.length_cons, List.countP_cons]
        congr 2 <;> omega

theorem classify_eq (kind : Kind) (ctx : Context) (leftovers : Leftovers)
    (listing : List Object) :
    classify kind ctx leftovers listing =
      match (relevantIn kind ctx leftovers listing).find? hasFailed with
      | some o => .error (failure o)
      | none => .ok (.of (relevantIn kind ctx leftovers listing)) := by
  have hfilter : classify kind ctx leftovers listing =
      (relevantIn kind ctx leftovers listing).foldlM Tally.add ⟨0, 0, 0⟩ :=
    (List.foldlM_filter ..).symm
  rw [hfilter, Tally.foldlM_add]
  simp only [Nat.zero_add]
  rfl

/-- Listings with the same relevant objects are classified alike. -/
theorem classify_congr {kind : Kind} {ctx : Context} {leftovers others : Leftovers}
    {listing other : List Object}
    (h : relevantIn kind ctx leftovers listing = relevantIn kind ctx others other) :
    classify kind ctx leftovers listing = classify kind ctx others other := by
  rw [classify_eq, classify_eq, h]

theorem eq_of_classify_eq_ok {kind : Kind} {ctx : Context} {leftovers : Leftovers}
    {listing : List Object} {t : Tally} (h : classify kind ctx leftovers listing = .ok t) :
    t = .of (relevantIn kind ctx leftovers listing) ∧
      ∀ o ∈ relevantIn kind ctx leftovers listing, o.phase ≠ .failed := by
  rw [classify_eq] at h
  cases hfind : (relevantIn kind ctx leftovers listing).find? hasFailed with
  | some o =>
    rw [hfind] at h
    cases h
  | none =>
    rw [hfind] at h
    refine ⟨(Except.ok.inj h).symm, ?_⟩
    intro o ho
    simpa [hasFailed] using List.find?_eq_none.mp hfind o ho

/-- A refused listing holds a relevant Failed object, which the error names. -/
theorem exists_of_classify_eq_error {kind : Kind} {ctx : Context} {leftovers : Leftovers}
    {listing : List Object} {e : Error} (h : classify kind ctx leftovers listing = .error e) :
    ∃ o ∈ relevantIn kind ctx leftovers listing, o.phase = .failed ∧
      e = .jobFailed kind o.identity.text o.phase.text o.message := by
  rw [classify_eq] at h
  cases hfind : (relevantIn kind ctx leftovers listing).find? hasFailed with
  | none =>
    rw [hfind] at h
    cases h
  | some o =>
    rw [hfind] at h
    have hmem := List.mem_of_find?_eq_some hfind
    have hfailed : o.phase = .failed := by simpa [hasFailed] using List.find?_some hfind
    have hrelevant : isRelevant kind ctx leftovers o = true := (List.mem_filter.mp hmem).2
    have hkind : o.kind = kind := by
      simp only [isRelevant, Bool.and_eq_true, beq_iff_eq] at hrelevant
      exact hrelevant.1.1.1
    refine ⟨o, hmem, hfailed, ?_⟩
    rw [← Except.error.inj h, failure, hkind]

namespace JobState

def note (job : JobState) (kind : Kind) (listing : List Object) : JobState :=
  { job with leftovers := job.leftovers.record kind listing }

/-- What a check reports of a kind that has not finished before. -/
def verdict (job : JobState) (ctx : Context) (checker : Checker) (t : Tally) : Outcome :=
  let (started, reason) := judge (job.completion.get checker.kind).started checker.mayStayEmpty
    ctx.expectedUnits t
  ⟨checker.kind, started, reason.isSome, t.completed, t.pending, ctx.expectedUnits, reason⟩

def settle (job : JobState) (o : Outcome) : JobState :=
  { job with completion := job.completion.set o.kind ⟨o.started, o.finished⟩ }

@[simp] theorem kind_verdict (job : JobState) (ctx : Context) (checker : Checker) (t : Tally) :
    (job.verdict ctx checker t).kind = checker.kind := rfl

/-- A stage that finishes has no relevant object or exactly the expected number of Completed ones.
-/
theorem tally_of_verdict_finished {job : JobState} {ctx : Context} {checker : Checker} {t : Tally}
    (h : (job.verdict ctx checker t).finished = true) :
    t.relevant = 0 ∨ t.completed = ctx.expectedUnits := by
  unfold verdict judge at h
  by_cases hnone : t.relevant = 0
  · exact Or.inl hnone
  · rw [if_neg hnone] at h
    by_cases hall : t.completed = ctx.expectedUnits
    · exact Or.inr hall
    · simp [hall] at h

/-- A kind that has started stays started. -/
theorem started_verdict {job : JobState} {ctx : Context} {checker : Checker} {t : Tally}
    (h : (job.completion.get checker.kind).started = true) :
    (job.verdict ctx checker t).started = true := by
  unfold verdict judge
  split
  · next hjudge =>
    split at hjudge
    · cases hjudge
      exact h
    · cases hjudge
      rfl

end JobState
end BackupWatch.Job
