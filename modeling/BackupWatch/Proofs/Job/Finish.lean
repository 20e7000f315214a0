import BackupWatch.Proofs.Job.Progress
import Mathlib.Tactic.ByContra

/-!
How a kind becomes finished: only in a check, which was allowed to list it and whose own listing
held the expected number of complete objects or none that are relevant.
-/

namespace BackupWatch.Job

open Act Cluster Watch

/-- On a path from where something does not hold to where it does, one step brings it about. -/
theorem exists_crossing {α : Type} {step : α → α → Prop} (holds : α → Prop) {a b : α}
    (h : Relation.ReflTransGen step a b) (ha : ¬ holds a) (hb : holds b) :
    ∃ c d, Relation.ReflTransGen step a c ∧ step c d ∧ Relation.ReflTransGen step d b ∧
      ¬ holds c ∧ holds d := by
  induction h with
  | refl => exact absurd hb ha
  | @tail c d hac hcd ih =>
    by_cases hc : holds c
    · obtain ⟨x, y, hax, hxy, hyc, hx, hy⟩ := ih hc
      exact ⟨x, y, hax, hxy, hyc.tail hcd, hx, hy⟩
    · exact ⟨c, d, hac, hcd, .refl, hc, hb⟩

variable {κ : Type} {client : Client κ} {ctx : Context}

/-- A listing on which a kind becomes finished. -/
structure Suffices (ctx : Context) (kind : Kind) (leftovers : Leftovers) (listing : List Object) :
    Prop where
  unfailed : ∀ o ∈ relevantIn kind ctx leftovers listing, o.phase ≠ .failed
  count : relevantIn kind ctx leftovers listing = [] ∨
    (relevantIn kind ctx leftovers listing).countP isComplete = ctx.expectedUnits

/-- A kind that a check finishes was listed in it, on a listing that suffices. -/
theorem Checking.suffices_of_done {checker : Checker} {kind : Kind} {s : Session κ JobState}
    {result : Except Failure Outcome × Session κ JobState}
    (h : Checking client ctx checker s result)
    (hbefore : (s.own.completion.get kind).finished = false)
    (hafter : (result.2.own.completion.get kind).finished = true) :
    checker.kind = kind ∧ (∃ o, result.1 = .ok o) ∧
      ∃ listing, (listInScope client ctx kind s).1 = .ok listing ∧
        Suffices ctx kind result.2.own.leftovers listing := by
  cases h with
  | cached _ =>
    rw [hbefore] at hafter
    cases hafter
  | refused _ _ hown =>
    rw [hown, hbefore] at hafter
    cases hafter
  | failed _ _ _ _ =>
    change (s.own.completion.get kind).finished = true at hafter
    rw [hbefore] at hafter
    cases hafter
  | @counted listing later t o _ hlist hown hcount hverdict =>
    subst hverdict
    have hkind : checker.kind = kind := by
      by_contra hne
      have hother := PerKind.get_set_of_ne s.own.completion
        ⟨(s.own.verdict ctx checker t).started, (s.own.verdict ctx checker t).finished⟩
        (Ne.symm hne)
      simp only [JobState.settle, JobState.note, JobState.kind_verdict, hother, hbefore] at hafter
      cases hafter
    subst hkind
    refine ⟨rfl, ⟨_, rfl⟩, listing, by rw [hlist], ?_⟩
    obtain ⟨htally, hunfailed⟩ := eq_of_classify_eq_ok hcount
    refine ⟨hunfailed, ?_⟩
    have hfinished : (s.own.verdict ctx checker t).finished = true := by
      simpa [JobState.settle] using hafter
    rcases JobState.tally_of_verdict_finished hfinished with hnone | hall
    · rw [htally] at hnone
      exact Or.inl (List.length_eq_zero_iff.mp hnone)
    · rw [htally] at hall
      exact Or.inr hall

namespace Progress

/-- A check that lists a kind, finds it unfinished and leaves it finished. -/
structure Finishes (client : Client κ) (ctx : Context) (kind : Kind) (listing : List Object)
    (s later : Session κ Progress) : Prop where
  check : ∃ checker o, checker.kind = kind ∧ onJob (Job.check client ctx checker) s = (.ok o, later)
  listed : (listInScope client ctx kind (s.focus Progress.job)).1 = .ok listing
  before : s.own.isDone kind = false
  after : later.own.isDone kind = true
  enough : Suffices ctx kind later.own.job.leftovers listing

/-- Recording leftovers finishes no stage. -/
theorem isDone_seed {kind other : Kind} (s : Session κ Progress) :
    (onJob (Job.seed client ctx kind) s).2.own.isDone other = s.own.isDone other := by
  have hseed := seeding client ctx kind (s.focus Progress.job)
  generalize hrun : Job.seed client ctx kind (s.focus Progress.job) = result at hseed
  rw [run_onJob, hrun]
  cases hseed with
  | built _ => rfl
  | refused _ _ hown => simp only [isDone, Session.unfocus, hown, Session.focus]
  | listed _ _ _ => rfl

/-- Only a check finishes a kind. -/
theorem Step.finishes {kind : Kind} {s later : Session κ Progress} (h : Step client ctx s later)
    (hbefore : s.own.isDone kind = false) (hafter : later.own.isDone kind = true) :
    ∃ listing, Finishes client ctx kind listing s later := by
  cases h with
  | pass millis =>
    change s.own.isDone kind = true at hafter
    rw [hbefore] at hafter
    cases hafter
  | seed _ =>
    rw [isDone_seed, hbefore] at hafter
    cases hafter
  | finish _ =>
    change s.own.isDone kind = true at hafter
    rw [hbefore] at hafter
    cases hafter
  | @check before _ stage hat =>
    have hcheck := checking client ctx (s.own.checkerAt before stage) (s.focus Progress.job)
    obtain ⟨hkind, ⟨o, ho⟩, listing, hlist, hsuffices⟩ := hcheck.suffices_of_done hbefore hafter
    exact ⟨listing, ⟨_, o, hkind, Prod.ext ho rfl⟩, hlist, hbefore, hafter, hsuffices⟩

end Progress
end BackupWatch.Job
