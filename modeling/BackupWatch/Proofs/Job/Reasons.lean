import BackupWatch.Proofs.Job.Classification
import BackupWatch.Proofs.Job.Leftovers
import Mathlib.Data.List.Induction

/-!
The reasons of checks, read off what the checks before have found. A job remembers three things of
a kind: the leftovers of its first listing, whether a check that counted saw an object that counts,
and whether a check finished it. With its own listing they decide the reason that a check gives.
-/

namespace BackupWatch.Job

open Act Cluster Watch

structure Probe (κ : Type) where
  client : Client κ
  /-- The clock, the dice and the cluster that the check meets. -/
  world : Session κ Unit
  mayStayEmpty : Bool

/-- What a check was allowed, met and gave. -/
structure Finding where
  mayStayEmpty : Bool
  /-- What listing the kind gives there. A check from memory does not ask for it. -/
  listed : Except Failure (List Object)
  result : Except Failure Outcome

namespace Probe

variable {κ : Type}

def checker (probe : Probe κ) (kind : Kind) : Checker := ⟨kind, probe.mayStayEmpty⟩

def start (probe : Probe κ) (job : JobState) : Session κ JobState := { probe.world with own := job }

def finding (probe : Probe κ) (ctx : Context) (kind : Kind) (job : JobState) : Finding where
  mayStayEmpty := probe.mayStayEmpty
  listed := (listInScope probe.client ctx kind (probe.start job)).1
  result := (check probe.client ctx (probe.checker kind) (probe.start job)).1

def after (probe : Probe κ) (ctx : Context) (kind : Kind) (job : JobState) : JobState :=
  (check probe.client ctx (probe.checker kind) (probe.start job)).2.own

end Probe

structure Examined where
  job : JobState
  past : List Finding

namespace Examined

variable {κ : Type}

def next (e : Examined) (ctx : Context) (kind : Kind) (probe : Probe κ) : Examined :=
  ⟨probe.after ctx kind e.job, e.past ++ [probe.finding ctx kind e.job]⟩

def run (ctx : Context) (kind : Kind) (probes : List (Probe κ)) : Examined :=
  probes.foldl (fun e probe => e.next ctx kind probe) ⟨.fresh, []⟩

theorem run_snoc (ctx : Context) (kind : Kind) (probes : List (Probe κ)) (probe : Probe κ) :
    run ctx kind (probes ++ [probe]) = (run ctx kind probes).next ctx kind probe := by
  rw [run, List.foldl_append]
  rfl

end Examined

/-! ## What findings tell -/

section Findings

variable (ctx : Context) (kind : Kind)

def firstListing (past : List Finding) : Option (List Object) :=
  past.findSome? fun f => f.listed.toOption

/-- The completed objects of the first listing. -/
def leftoversOf (past : List Finding) : Leftovers :=
  match firstListing past with
  | none => .empty
  | some listing => Leftovers.empty.record kind listing

/-- A check that counted saw an object that counts. -/
structure Sees (past : List Finding) (f : Finding) : Prop where
  counted : ∃ o, f.result = .ok o ∧ o.reason ≠ some .cached
  present : ∃ listing, f.listed = .ok listing ∧
    ∃ object ∈ listing, Counts kind ctx (leftoversOf kind (past ++ [f])) object

def Seen (past : List Finding) : Prop :=
  ∃ before f, before ++ [f] <+: past ∧ Sees ctx kind before f

def Finished (past : List Finding) : Prop :=
  ∃ f ∈ past, ∃ o, f.result = .ok o ∧ o.finished = true

end Findings

section Snoc

variable {ctx : Context} {kind : Kind} {past : List Finding} {f : Finding}

theorem firstListing_snoc (past : List Finding) (f : Finding) :
    firstListing (past ++ [f]) = (firstListing past).or f.listed.toOption := by
  rw [firstListing, List.findSome?_append, List.findSome?_singleton]
  rfl

/-- An object has been seen by the last check or by one before it. -/
theorem seen_snoc : Seen ctx kind (past ++ [f]) ↔ Seen ctx kind past ∨ Sees ctx kind past f := by
  constructor
  · rintro ⟨before, g, hprefix, hsees⟩
    rcases List.prefix_concat_iff.mp hprefix with hlast | hearlier
    · obtain ⟨rfl, hsame⟩ := List.append_inj' hlast rfl
      cases hsame
      exact Or.inr hsees
    · exact Or.inl ⟨before, g, hearlier, hsees⟩
  · rintro (⟨before, g, hprefix, hsees⟩ | hsees)
    · exact ⟨before, g, hprefix.trans (List.prefix_append _ _), hsees⟩
    · exact ⟨past, f, List.prefix_rfl, hsees⟩

theorem finished_snoc :
    Finished (past ++ [f]) ↔ Finished past ∨ ∃ o, f.result = .ok o ∧ o.finished = true := by
  simp only [Finished, List.mem_append, List.mem_singleton, or_and_right, exists_or,
    exists_eq_left]

theorem entries_leftoversOf (past : List Finding) :
    (leftoversOf kind past).entries.get kind =
      (firstListing past).map (Leftovers.completedIn kind) := by
  unfold leftoversOf
  cases firstListing past with
  | none => exact PerKind.get_same ..
  | some listing => simp [Leftovers.record, Leftovers.isBuilt, Leftovers.empty]

end Snoc

/-! ## What a job remembers -/

/-- What a job remembers of a kind is what the findings tell. -/
structure Remembers (ctx : Context) (kind : Kind) (e : Examined) : Prop where
  leftovers : e.job.leftovers.entries.get kind = (leftoversOf kind e.past).entries.get kind
  listed : (e.job.completion.get kind).finished = true → (firstListing e.past).isSome = true
  started : (e.job.completion.get kind).started = true ↔ Seen ctx kind e.past
  finished : (e.job.completion.get kind).finished = true ↔ Finished e.past

/-- A fresh job remembers nothing, and nothing was found. -/
theorem remembers_fresh (ctx : Context) (kind : Kind) : Remembers ctx kind ⟨.fresh, []⟩ := by
  have hnone : JobState.fresh.completion.get kind = ⟨false, false⟩ := PerKind.get_same ..
  refine ⟨rfl, ?_, ?_, ?_⟩
  · rw [hnone]
    intro h
    cases h
  · rw [hnone]
    refine ⟨fun h => (nomatch h), ?_⟩
    rintro ⟨before, f, hprefix, _⟩
    simp at hprefix
  · rw [hnone]
    refine ⟨fun h => (nomatch h), ?_⟩
    rintro ⟨f, hmem, _⟩
    cases hmem

section Verdict

variable {ctx : Context} {checker : Checker} {job : JobState} {t : Tally}

theorem started_verdict_iff :
    (job.verdict ctx checker t).started = true ↔
      (job.completion.get checker.kind).started = true ∨ t.relevant ≠ 0 := by
  unfold JobState.verdict judge
  grind

theorem reason_verdict_ne_cached : (job.verdict ctx checker t).reason ≠ some .cached := by
  unfold JobState.verdict judge
  grind

theorem reason_verdict_eq_vanished_iff :
    (job.verdict ctx checker t).reason = some .vanished ↔
      t.relevant = 0 ∧ (job.completion.get checker.kind).started = true := by
  unfold JobState.verdict judge
  grind

theorem reason_verdict_eq_notParticipating_iff :
    (job.verdict ctx checker t).reason = some .notParticipating ↔
      (job.verdict ctx checker t).started = false ∧ checker.mayStayEmpty = true := by
  unfold JobState.verdict judge
  grind

end Verdict

/-! ## What a check gives -/

/-- The reason of an outcome is the one that the findings tell. A kind that is finished gives no
other than that it is. -/
structure Reasoned (ctx : Context) (kind : Kind) (past : List Finding) (f : Finding) (o : Outcome) :
    Prop where
  finished : o.finished = true ↔ ∃ reason, o.reason = some reason
  cached : o.reason = some .cached ↔ Finished past
  threshold : ¬ Finished past → (o.reason = some .threshold ↔
    ∃ listing, f.listed = .ok listing ∧
      (∃ object ∈ listing, Counts kind ctx (leftoversOf kind (past ++ [f])) object) ∧
      listing.countP (fun object => Counts kind ctx (leftoversOf kind (past ++ [f])) object ∧
        object.phase = .completed) = ctx.expectedUnits)
  vanished : ¬ Finished past → (o.reason = some .vanished ↔
    (∃ listing, f.listed = .ok listing ∧
      ∀ object ∈ listing, ¬ Counts kind ctx (leftoversOf kind (past ++ [f])) object) ∧
    Seen ctx kind past)
  notParticipating : ¬ Finished past → (o.reason = some .notParticipating ↔
    ¬ Seen ctx kind (past ++ [f]) ∧ f.mayStayEmpty = true)

section Check

variable {κ : Type} {ctx : Context} {kind : Kind} {e : Examined} {f : Finding}

theorem Remembers.entries_note (h : Remembers ctx kind e) {listing : List Object}
    (hlisted : f.listed = .ok listing) :
    (e.job.note kind listing).leftovers.entries.get kind =
      (leftoversOf kind (e.past ++ [f])).entries.get kind := by
  rw [JobState.entries_note, if_pos rfl, h.leftovers, entries_leftoversOf, entries_leftoversOf,
    firstListing_snoc, hlisted]
  cases firstListing e.past <;> rfl

/-- A check that gives no count of its own has seen nothing. -/
theorem seen_snoc_of_not_counted (h : ∀ o, f.result = .ok o → o.reason = some .cached) :
    Seen ctx kind (e.past ++ [f]) ↔ Seen ctx kind e.past := by
  rw [seen_snoc]
  refine ⟨fun hseen => hseen.resolve_right fun hsees => ?_, Or.inl⟩
  obtain ⟨o, ho, hreason⟩ := hsees.counted
  exact hreason (h o ho)

structure Counted (ctx : Context) (checker : Checker) (e : Examined) (f : Finding)
    (listing : List Object) (t : Tally) : Prop where
  listed : f.listed = .ok listing
  allowed : f.mayStayEmpty = checker.mayStayEmpty
  result : f.result = .ok (e.job.verdict ctx checker t)
  relevant : t.relevant = 0 ↔ ∀ object ∈ listing,
    ¬ Counts checker.kind ctx (leftoversOf checker.kind (e.past ++ [f])) object
  completed : t.completed = listing.countP fun object =>
    Counts checker.kind ctx (leftoversOf checker.kind (e.past ++ [f])) object ∧
      object.phase = .completed

namespace Counted

variable {checker : Checker} {listing : List Object} {t : Tally}

/-- A check that counted has seen an object just if its tally is not empty. -/
theorem sees_iff (h : Counted ctx checker e f listing t) :
    Sees ctx checker.kind e.past f ↔ t.relevant ≠ 0 := by
  rw [Ne, h.relevant]
  constructor
  · rintro ⟨_, other, hother, object, hmem, hcounts⟩ hnone
    cases h.listed.symm.trans hother
    exact hnone object hmem hcounts
  · intro hsome
    simp only [not_forall, not_not] at hsome
    obtain ⟨object, hmem, hcounts⟩ := hsome
    exact ⟨⟨_, h.result, reason_verdict_ne_cached⟩, listing, h.listed, object, hmem, hcounts⟩

theorem started_iff (h : Counted ctx checker e f listing t)
    (hremembers : Remembers ctx checker.kind e) :
    (e.job.verdict ctx checker t).started = true ↔ Seen ctx checker.kind (e.past ++ [f]) := by
  rw [started_verdict_iff, hremembers.started, seen_snoc, h.sees_iff]

/-- The reason of a verdict is told by the findings alone. -/
theorem reasoned (h : Counted ctx checker e f listing t)
    (hremembers : Remembers ctx checker.kind e)
    (hopen : (e.job.completion.get checker.kind).finished = false) :
    Reasoned ctx checker.kind e.past f (e.job.verdict ctx checker t) := by
  have hunfinished : ¬ Finished e.past := by
    rw [← hremembers.finished, hopen]
    exact Bool.false_ne_true
  refine ⟨Option.isSome_iff_exists, iff_of_false reason_verdict_ne_cached hunfinished,
    fun _ => ?_, fun _ => ?_, fun _ => ?_⟩
  · rw [reason_verdict_eq_threshold_iff, ← h.sees_iff, h.completed]
    constructor
    · rintro ⟨hsees, hall⟩
      obtain ⟨other, hother, hsome⟩ := hsees.present
      cases h.listed.symm.trans hother
      exact ⟨listing, h.listed, hsome, hall⟩
    · rintro ⟨other, hother, hsome, hall⟩
      cases h.listed.symm.trans hother
      exact ⟨⟨⟨_, h.result, reason_verdict_ne_cached⟩, listing, h.listed, hsome⟩, hall⟩
  · rw [reason_verdict_eq_vanished_iff, hremembers.started, h.relevant]
    refine and_congr_left fun _ => ⟨fun hnone => ⟨listing, h.listed, hnone⟩, ?_⟩
    rintro ⟨other, hother, hnone⟩
    cases h.listed.symm.trans hother
    exact hnone
  · rw [reason_verdict_eq_notParticipating_iff, ← Bool.not_eq_true, h.started_iff hremembers,
      h.allowed]

end Counted

structure Told (ctx : Context) (kind : Kind) (e : Examined) (f : Finding) (job : JobState) :
    Prop where
  remembers : Remembers ctx kind ⟨job, e.past ++ [f]⟩
  unchanged : ∀ failure, f.result = .error failure → job.completion = e.job.completion
  given : ∀ o, f.result = .ok o →
    job.completion.get kind = ⟨o.started, o.finished⟩ ∧ Reasoned ctx kind e.past f o

/-- A check that fails leaves the flags as they are. -/
theorem Remembers.told_of_error (h : Remembers ctx kind e) {failure : Failure} {job : JobState}
    (hresult : f.result = .error failure) (hcompletion : job.completion = e.job.completion)
    (hleftovers : job.leftovers.entries.get kind =
      (leftoversOf kind (e.past ++ [f])).entries.get kind) : Told ctx kind e f job := by
  have hnone : ∀ o, f.result ≠ .ok o := by
    rw [hresult]
    exact fun o ho => nomatch ho
  refine ⟨⟨hleftovers, ?_, ?_, ?_⟩, fun _ _ => hcompletion, fun o ho => absurd ho (hnone o)⟩
  · rw [hcompletion, firstListing_snoc]
    intro hdone
    rw [Option.isSome_or, h.listed hdone, Bool.true_or]
  · rw [hcompletion, h.started, seen_snoc_of_not_counted fun o ho => absurd ho (hnone o)]
  · rw [hcompletion, h.finished, finished_snoc]
    exact ⟨Or.inl, fun hdone => hdone.resolve_right fun ⟨o, ho, _⟩ => hnone o ho⟩

/-- A check of a finished kind tells what is remembered. -/
theorem Remembers.told_of_cached (h : Remembers ctx kind e)
    (hdone : (e.job.completion.get kind).finished = true)
    (hresult : f.result = .ok (.cached ctx kind (e.job.completion.get kind))) :
    Told ctx kind e f e.job := by
  have hfinished := h.finished.mp hdone
  have hlisted := h.listed hdone
  have honly : ∀ o, f.result = .ok o → o = .cached ctx kind (e.job.completion.get kind) :=
    fun o ho => (Except.ok.inj (hresult.symm.trans ho)).symm
  refine ⟨⟨?_, ?_, ?_, ?_⟩, fun _ hfailed => (nomatch hresult.symm.trans hfailed), ?_⟩
  -- The first listing was earlier, so that what could be listed now plays no part.
  · obtain ⟨listing, hfirst⟩ := Option.isSome_iff_exists.mp hlisted
    rw [h.leftovers, entries_leftoversOf, entries_leftoversOf, firstListing_snoc, hfirst,
      Option.some_or]
  · intro _
    rw [firstListing_snoc, Option.isSome_or, hlisted, Bool.true_or]
  · rw [h.started, seen_snoc_of_not_counted fun o ho => honly o ho ▸ rfl]
  · exact iff_of_true hdone (finished_snoc.mpr (Or.inl hfinished))
  · intro o ho
    obtain rfl := honly o ho
    refine ⟨congrArg (Completion.mk _) hdone, ?_⟩
    exact ⟨iff_of_true rfl ⟨_, rfl⟩, iff_of_true rfl hfinished, fun hopen => absurd hfinished hopen,
      fun hopen => absurd hfinished hopen, fun hopen => absurd hfinished hopen⟩

/-- A check that counted tells what its listing and the findings before it say. -/
theorem Counted.told {checker : Checker} {listing : List Object} {t : Tally} {job : JobState}
    (h : Counted ctx checker e f listing t) (hremembers : Remembers ctx checker.kind e)
    (hopen : (e.job.completion.get checker.kind).finished = false)
    (hjob : job = (e.job.note checker.kind listing).settle (e.job.verdict ctx checker t)) :
    Told ctx checker.kind e f job := by
  have honly : ∀ o, f.result = .ok o → o = e.job.verdict ctx checker t :=
    fun o ho => (Except.ok.inj (h.result.symm.trans ho)).symm
  have hcompletion : job.completion.get checker.kind =
      ⟨(e.job.verdict ctx checker t).started, (e.job.verdict ctx checker t).finished⟩ := by
    rw [hjob]
    exact PerKind.get_set_self ..
  refine ⟨⟨?_, fun _ => ?_, ?_, ?_⟩, fun _ hfailed => (nomatch h.result.symm.trans hfailed), ?_⟩
  · rw [hjob]
    exact hremembers.entries_note h.listed
  · rw [firstListing_snoc, h.listed, Option.isSome_or]
    exact Bool.or_true _
  · rw [hcompletion, h.started_iff hremembers]
  · rw [hcompletion, finished_snoc]
    refine ⟨fun hdone => Or.inr ⟨_, h.result, hdone⟩, ?_⟩
    rintro (hdone | ⟨o, ho, hdone⟩)
    · cases hopen.symm.trans (hremembers.finished.mpr hdone)
    · exact honly o ho ▸ hdone
  · intro o ho
    obtain rfl := honly o ho
    exact ⟨hcompletion, h.reasoned hremembers hopen⟩

/-- A check of a job gives what the findings tell, and the job remembers it. -/
theorem Remembers.told (h : Remembers ctx kind e) (probe : Probe κ) :
    Told ctx kind e (probe.finding ctx kind e.job) (probe.after ctx kind e.job) := by
  have hcheck := checking probe.client ctx (probe.checker kind) (probe.start e.job)
  have hresult : (probe.finding ctx kind e.job).result =
      (check probe.client ctx (probe.checker kind) (probe.start e.job)).1 := rfl
  have hafter : probe.after ctx kind e.job =
      (check probe.client ctx (probe.checker kind) (probe.start e.job)).2.own := rfl
  rw [hafter]
  generalize check probe.client ctx (probe.checker kind) (probe.start e.job) = made
    at hcheck hresult
  cases hcheck with
  | cached hdone => exact h.told_of_cached hdone hresult
  | @refused failure _ _ hlist hown =>
    have hlisted : (probe.finding ctx kind e.job).listed = .error failure := congrArg Prod.fst hlist
    refine h.told_of_error hresult (congrArg JobState.completion hown) ?_
    rw [entries_leftoversOf, firstListing_snoc, hlisted]
    change _ = Option.map _ (Option.or _ none)
    rw [Option.or_none, ← entries_leftoversOf, hown]
    exact h.leftovers
  | @failed listing _ _ _ hlist _ _ =>
    have hlisted : (probe.finding ctx kind e.job).listed = .ok listing := congrArg Prod.fst hlist
    exact h.told_of_error hresult rfl (h.entries_note hlisted)
  | @counted listing _ t _ hopen hlist _ hcount hverdict =>
    have hlisted : (probe.finding ctx kind e.job).listed = .ok listing := congrArg Prod.fst hlist
    have hnoted := h.entries_note hlisted
    have htally : classify kind ctx (e.job.note kind listing).leftovers listing = .ok t := hcount
    subst hverdict
    have hcounted :
        Counted ctx (probe.checker kind) e (probe.finding ctx kind e.job) listing t := by
      refine ⟨hlisted, rfl, hresult, (relevant_eq_zero_iff htally).trans ?_,
        (tally_of_classify htally).1.trans ?_⟩
      · simp only [counts_congr hnoted]
        rfl
      · simp only [counts_congr hnoted]
        rfl
    exact hcounted.told h hopen rfl

end Check

/-- The flags and the reasons of checks tell the history. After checks of a kind, each with any
listing or none to be had and with or without leave to stay empty, one more check leaves the kind
started if a check that counted has seen an object that counts; if it fails, it changes no flag;
and otherwise it says what it leaves, for the reason that the findings tell. -/
theorem reasons_tell_history {κ : Type} (ctx : Context) (kind : Kind) (probes : List (Probe κ))
    (probe : Probe κ) :
    let before := Examined.run ctx kind probes
    let after := Examined.run ctx kind (probes ++ [probe])
    let f := probe.finding ctx kind before.job
    ((after.job.completion.get kind).started = true ↔ Seen ctx kind (before.past ++ [f])) ∧
    (∀ failure, f.result = .error failure → after.job.completion = before.job.completion) ∧
    ∀ o, f.result = .ok o →
      after.job.completion.get kind = ⟨o.started, o.finished⟩ ∧
        Reasoned ctx kind before.past f o := by
  have hremembers :
      ∀ probes : List (Probe κ), Remembers ctx kind (Examined.run ctx kind probes) := by
    intro probes
    -- From the end: what a check finds depends on all the checks before it.
    induction probes using List.reverseRecOn with
    | nil => exact remembers_fresh ctx kind
    | append_singleton probes probe ih =>
      rw [Examined.run_snoc]
      exact (ih.told probe).remembers
  have htold := (hremembers probes).told probe
  intro before after f
  have hafter : after = before.next ctx kind probe := Examined.run_snoc ..
  rw [hafter]
  exact ⟨htold.remembers.started, htold.unchanged, htold.given⟩

def refusing : Client Unit where
  accepts _ := true
  reply _ _ _ := ⟨.error .malformedAnswer, 0, ()⟩

def quietWorld : Session Unit Unit := ⟨0, fun _ => 0, (), ()⟩

/-- A check that cannot list the uploads, one that finds a failure, and one that finds an upload on
its way. -/
def troubledProbes : List (Probe Unit) :=
  [⟨refusing, quietWorld, true⟩, ⟨uploading [("nightly-a", .failed)], quietWorld, true⟩,
    ⟨uploading [("nightly-a", .inProgress), ("weekly-a", .failed)], quietWorld, false⟩]

def emptyProbe : Probe Unit := ⟨uploading [], quietWorld, false⟩

/-- An upload that is gone again was seen by a check that counted. -/
theorem reasons_tell_history_vanished :
    (emptyProbe.finding (nightly true) .dataUpload
        (Examined.run (nightly true) .dataUpload troubledProbes).job).result =
      .ok ⟨.dataUpload, true, true, 0, 0, 3, some .vanished⟩ ∧
    Seen (nightly true) .dataUpload
      (Examined.run (nightly true) .dataUpload troubledProbes).past := by
  have htold := reasons_tell_history (nightly true) .dataUpload troubledProbes emptyProbe
  have hresult : (emptyProbe.finding (nightly true) .dataUpload
      (Examined.run (nightly true) .dataUpload troubledProbes).job).result =
        .ok ⟨.dataUpload, true, true, 0, 0, 3, some .vanished⟩ := rfl
  have hreasoned := (htold.2.2 _ hresult).2
  have hopen : ¬ Finished (Examined.run (nightly true) .dataUpload troubledProbes).past :=
    fun hdone => nomatch hreasoned.cached.mpr hdone
  exact ⟨hresult, ((hreasoned.vanished hopen).mp rfl).2⟩

end BackupWatch.Job
