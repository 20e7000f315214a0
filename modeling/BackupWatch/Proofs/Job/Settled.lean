import BackupWatch.Proofs.Ends
import BackupWatch.Proofs.Job.Downstream
import Mathlib.Data.List.TakeWhile

/-!
Progress between turns. While a pass or a wait is under way, progress may have all its stages
finished and not yet say so; wherever a turn ends, it says so just if that is the case. A turn is
cut short only at a stage, and then this stage or one behind it has not finished.
-/

namespace BackupWatch.Job.Progress

open Act Cluster Watch

variable {κ α : Type} {client : Client κ} {ctx : Context}

def Settled (p : Progress) : Prop :=
  p.finished = true ↔ ∀ kind ∈ p.chain.stages, p.isDone kind = true

/-- What progress is between turns. -/
structure Orderly (p : Progress) : Prop where
  inOrder : p.InOrder
  settled : p.Settled

/-- A place in the chain that a turn has come to, with stages to go that are not all finished. -/
structure Facing (p : Progress) (before after : List Kind) : Prop where
  place : p.AtStage before after
  inOrder : p.InOrder
  unmarked : p.finished = false
  remaining : after ≠ [] → ∃ kind ∈ after, p.isDone kind = false

structure SameMarks (later p : Progress) : Prop where
  chain : later.chain = p.chain
  finished : later.finished = p.finished
  completion : later.job.completion = p.job.completion

theorem SameMarks.isDone {p later : Progress} (h : later.SameMarks p) (kind : Kind) :
    later.isDone kind = p.isDone kind := by
  rw [Progress.isDone, Progress.isDone, h.completion]

theorem SameMarks.orderly {p later : Progress} (h : later.SameMarks p) (hp : p.Orderly) :
    later.Orderly := by
  refine ⟨(inOrder_congr h.chain h.completion).mpr hp.inOrder, ?_⟩
  have hsettled := hp.settled
  simp only [Settled, h.isDone, h.chain, h.finished] at hsettled ⊢
  exact hsettled

theorem orderly_fresh (chain : Chain) : (fresh chain).Orderly :=
  ⟨inOrder_fresh chain, by unfold Settled; cases chain <;> decide⟩

/-- A chain is finished stages, then one that is not, then untouched ones. -/
theorem InOrder.exists_split {p : Progress} (h : p.InOrder) :
    ∃ done rest, p.chain.stages = done ++ rest ∧ (∀ kind ∈ done, p.isDone kind = true) ∧
      (∀ kind ∈ rest, p.isDone kind = false) ∧ ∀ kind ∈ rest.tail, p.job.Untouched kind := by
  refine ⟨p.chain.stages.takeWhile p.isDone, p.chain.stages.dropWhile p.isDone,
    List.takeWhile_append_dropWhile.symm, fun kind hkind => List.mem_takeWhile_imp hkind, ?_⟩
  cases hrest : p.chain.stages.dropWhile p.isDone with
  | nil => simp
  | cons first behind =>
    have hopen : p.isDone first = false := by
      have hne : p.chain.stages.dropWhile p.isDone ≠ [] := by simp [hrest]
      have hhead := List.head_dropWhile_not p.isDone hne
      simpa only [hrest, List.head_cons] using hhead
    have hsplit : p.chain.stages = p.chain.stages.takeWhile p.isDone ++ first :: behind := by
      rw [← hrest, List.takeWhile_append_dropWhile]
    have hbehind := h.untouched hsplit hopen
    refine ⟨?_, hbehind⟩
    intro kind hkind
    rcases List.mem_cons.mp hkind with rfl | hmem
    · exact hopen
    · exact not_isDone_of_untouched (hbehind kind hmem)

/-- At a place with stages to go, progress is in order. -/
theorem Facing.orderly {p : Progress} {before after : List Kind} (h : p.Facing before after)
    (hafter : after ≠ []) : p.Orderly := by
  refine ⟨h.inOrder, ?_⟩
  obtain ⟨kind, hkind, hopen⟩ := h.remaining hafter
  have hstage : kind ∈ p.chain.stages := by
    rw [h.place.stages]
    exact List.mem_append_right before hkind
  constructor
  · intro hfinished
    rw [h.unmarked] at hfinished
    cases hfinished
  · intro hall
    rw [hall kind hstage] at hopen
    cases hopen

/-- A turn begins at the first stage. -/
theorem facing_start {p later : Progress} (h : p.Orderly) (hopen : ¬ p.finished = true)
    (hsame : later.SameMarks p) (hseeded : later.Seeded) : later.Facing [] p.chain.stages := by
  refine ⟨⟨congrArg Chain.stages hsame.chain, by simp, hseeded⟩, (hsame.orderly h).inOrder, ?_, ?_⟩
  · rw [hsame.finished]
    simpa using hopen
  · intro _
    have hsome := mt h.settled.mpr hopen
    simp only [Classical.not_forall, Bool.not_eq_true, exists_prop] at hsome
    simpa only [hsame.isDone] using hsome

/-- Recording the leftovers of all stages changes nothing but leftovers. -/
theorem ends_seedAll (p : Progress) :
    Ends (fun s => s.own = p) (seedAll client ctx)
      (fun _ s => s.own.SameMarks p ∧ s.own.Seeded) fun _ s => s.own.SameMarks p := by
  have hkeeps : Keeps (fun s => s.own.SameMarks p) (seedAll client ctx) := by
    refine ends_bind (fun _ s => s.own.SameMarks p) (ends_own fun _ h => h) fun _ => ?_
    refine ends_forM _ fun kind => keeps_of_run fun s hs => ?_
    have hcompletion := (seeding client ctx kind (s.focus Progress.job)).completion
    exact ⟨hs.chain, hs.finished, hcompletion.trans hs.completion⟩
  have hstart : ∀ s : Session κ Progress, s.own = p → s.own.SameMarks p := by
    rintro s rfl
    exact ⟨rfl, rfl, rfl⟩
  have hlead : Leads (Path client ctx) (fun s => s.own = p) (seedAll client ctx) _ :=
    (leads_seedAll p.chain).imp (fun s hs => congrArg Progress.chain hs) fun _ _ h => h
  refine ((hkeeps.imp hstart (fun _ _ h => h) fun _ _ h => h).and_leads hlead).imp ?_ ?_ ?_
  · exact fun _ h => h
  · exact fun _ _ h => ⟨h.1, h.2.2⟩
  · exact fun _ _ h => h

theorem isDone_check_of_ne {checker : Checker} (s : Session κ Progress) {other : Kind}
    (hne : other ≠ checker.kind) :
    (onJob (Job.check client ctx checker) s).2.own.isDone other = s.own.isDone other := by
  have hsame := (checking client ctx checker (s.focus Progress.job)).sameAt hne
  exact congrArg Completion.finished hsame.completion

theorem isDone_check_of_error {checker : Checker} {s : Session κ Progress} {f : Failure}
    (h : (onJob (Job.check client ctx checker) s).1 = .error f) (kind : Kind) :
    (onJob (Job.check client ctx checker) s).2.own.isDone kind = s.own.isDone kind := by
  rcases (checking client ctx checker (s.focus Progress.job)).completion
    with hsame | ⟨_, t, hok, _⟩
  · exact congrArg (fun completion => (completion.get kind).finished) hsame
  · cases h.symm.trans hok

variable (client ctx) in
/-- A stage that was unfinished has untouched ones behind it, so the check that finishes it leaves
all of these to go. -/
theorem remaining_check {s : Session κ Progress} {before after : List Kind} {kind : Kind}
    (h : s.own.Facing before (kind :: after)) {checker : Checker} (hkind : checker.kind = kind)
    (hdone : (onJob (Job.check client ctx checker) s).2.own.isDone kind = true)
    (hafter : after ≠ []) :
    ∃ other ∈ after, (onJob (Job.check client ctx checker) s).2.own.isDone other = false := by
  have hnodup := s.own.chain.nodup_stages
  rw [h.place.stages, List.nodup_append, List.nodup_cons] at hnodup
  have hne : ∀ other ∈ after, other ≠ checker.kind := by
    rintro other hother rfl
    exact hnodup.2.1.1 (hkind ▸ hother)
  suffices hbefore : ∃ other ∈ after, s.own.isDone other = false by
    obtain ⟨other, hother, hopen⟩ := hbefore
    exact ⟨other, hother, (isDone_check_of_ne s (hne other hother)).trans hopen⟩
  cases hopen : s.own.isDone kind with
  | false =>
    obtain ⟨other, hother⟩ := List.exists_mem_of_ne_nil after hafter
    have huntouched := h.inOrder.untouched h.place.stages hopen other hother
    exact ⟨other, hother, not_isDone_of_untouched huntouched⟩
  | true =>
    obtain ⟨other, hother, hopen'⟩ := h.remaining (List.cons_ne_nil kind after)
    rcases List.mem_cons.mp hother with rfl | hmem
    · rw [hopen] at hopen'
      cases hopen'
    · exact ⟨other, hmem, hopen'⟩

/-- A check moves on to the next place if its stage has finished, and else stays. -/
theorem ends_check {before after : List Kind} {kind : Kind} (checker : Checker) :
    Ends (fun s => s.own.Facing before (kind :: after) ∧ s.own.checkerAt before kind = checker)
      (onJob (Job.check client ctx checker))
      (fun o s => if o.finished then s.own.Facing (before ++ [kind]) after
        else s.own.Facing before (kind :: after) ∧ s.own.checkerAt before kind = checker)
      fun _ s => s.own.Orderly := by
  rintro s ⟨hfacing, hchecker⟩
  have hkind : checker.kind = kind := hchecker ▸ rfl
  have hstep : Step client ctx s (onJob (Job.check client ctx checker) s).2 :=
    hchecker ▸ .check s hfacing.place
  have hplace := hstep.advances.atStage hfacing.place
  have horder := hstep.inOrder hfacing.inOrder
  have hunmarked : (onJob (Job.check client ctx checker) s).2.own.finished = false :=
    hfacing.unmarked
  have hsame := (hstep.advances.checkerAt hfacing.place kind).trans hchecker
  rcases hrun : onJob (Job.check client ctx checker) s with ⟨f | o, later⟩
  · have hstill := isDone_check_of_error (congrArg Prod.fst hrun)
    rw [hrun] at hplace horder hunmarked hstill
    refine .error (Facing.orderly ⟨hplace, horder, hunmarked, fun hne => ?_⟩
      (List.cons_ne_nil kind after))
    simpa only [hstill] using hfacing.remaining hne
  · have hdone := isDone_check (congrArg Prod.fst hrun)
    have hremaining := remaining_check client ctx hfacing hkind
    rw [hrun] at hplace horder hunmarked hsame hdone hremaining
    rw [hkind] at hdone
    refine .ok ?_
    split
    · next hfinished =>
      rw [hfinished] at hdone
      exact ⟨hplace.next hdone, horder, hunmarked, hremaining hdone⟩
    · next hpending =>
      refine ⟨⟨hplace, horder, hunmarked, fun _ => ?_⟩, hsame⟩
      exact ⟨kind, List.mem_cons_self .., hdone.trans (by simpa using hpending)⟩

theorem ends_markFinished {before : List Kind} :
    Ends (fun s => s.own.Facing before []) (markFinished : Act κ Progress Unit)
      (fun _ s => s.own.Orderly) fun _ s => s.own.Orderly := by
  intro s hs
  refine .ok ⟨(inOrder_congr rfl rfl).mpr hs.inOrder, fun _ => ?_, fun _ => rfl⟩
  intro kind hkind
  have hstages := hs.place.stages
  rw [List.append_nil] at hstages
  exact hs.place.done kind (hstages ▸ hkind)

/-- However a pass ends, progress is in order. -/
theorem ends_passFrom (before after : List Kind) :
    Ends (fun s => s.own.Facing before after) (passFrom client ctx before.getLast? after)
      (fun _ s => s.own.Orderly) fun _ s => s.own.Orderly := by
  induction after generalizing before with
  | nil => exact ends_bind _ ends_markFinished fun _ => ends_pure _ fun _ h => h
  | cons kind after ih =>
    unfold passFrom
    refine ends_bind (fun p s => s.own.Facing before (kind :: after) ∧
      s.own.checkerAt before kind = p.checkerAt before kind)
      (ends_own fun s hs => ⟨hs, rfl⟩) fun p => ?_
    refine ends_bind _ (ends_check _) fun o => ?_
    refine ends_ite (fun hdone => ?_) fun hpending => ends_pure _ fun s hs => ?_
    · have hnext := ih (before ++ [kind])
      rw [List.getLast?_concat] at hnext
      simp only [hdone, if_true]
      exact ends_bind _ hnext fun _ => ends_pure _ fun _ h => h
    · simp only [hpending, Bool.false_eq_true, if_false] at hs
      exact hs.1.orderly (List.cons_ne_nil kind after)

/-- However a wait ends, progress is in order. -/
theorem ends_waitFrom (settings : Poll.Settings) (before after : List Kind) :
    Ends (fun s => s.own.Facing before after) (waitFrom client ctx settings before.getLast? after)
      (fun _ s => s.own.Orderly) fun _ s => s.own.Orderly := by
  induction after generalizing before with
  | nil => exact ends_markFinished
  | cons kind after ih =>
    unfold waitFrom
    refine ends_bind (fun p s => s.own.Facing before (kind :: after) ∧
      s.own.checkerAt before kind = p.checkerAt before kind)
      (ends_own fun s hs => ⟨hs, rfl⟩) fun p => ?_
    have hnext := ih (before ++ [kind])
    rw [List.getLast?_concat] at hnext
    refine ends_bind _ (Poll.ends_run settings _ (fun s n hs => hs)
      (fun _ s hs => hs.1.orderly (List.cons_ne_nil kind after)) ?_) fun _ => hnext
    exact ends_bind _ (ends_check _) fun o => ends_pure _ fun s hs => hs

/-- A turn with stages to go leaves leftovers first, and then comes to the first of them. -/
theorem keeps_onward {onward : Act κ Progress α} {p : Progress} (hopen : ¬ p.finished = true)
    (h : Ends (fun s => s.own.Facing [] p.chain.stages) onward (fun _ s => s.own.Orderly)
      fun _ s => s.own.Orderly) :
    Ends (fun s => s.own = p ∧ p.Orderly) (do
        seedAll client ctx
        onward)
      (fun _ s => s.own.Orderly) fun _ s => s.own.Orderly := by
  intro s hs
  obtain ⟨hown, hp⟩ := hs
  refine ends_bind _ ((ends_seedAll p).imp (fun _ h => h) ?_ ?_) (fun _ => h) s hown
  · exact fun _ s hs => facing_start hp hopen hs.1 hs.2
  · exact fun _ s hs => hs.orderly hp

theorem keeps_pass (client : Client κ) (ctx : Context) :
    Keeps (fun s => s.own.Orderly) (pass client ctx) := by
  unfold pass
  refine ends_bind (fun p s => s.own = p ∧ p.Orderly) (ends_own fun s hs => ⟨rfl, hs⟩) fun p => ?_
  refine ends_ite (fun _ => ends_pure _ fun s hs => hs.1 ▸ hs.2) fun hopen => ?_
  exact keeps_onward hopen (ends_passFrom [] p.chain.stages)

theorem keeps_wait (client : Client κ) (ctx : Context) (settings : Poll.Settings) :
    Keeps (fun s => s.own.Orderly) (wait client ctx settings) := by
  unfold wait
  refine ends_bind (fun p s => s.own = p ∧ p.Orderly) (ends_own fun s hs => ⟨rfl, hs⟩) fun p => ?_
  refine ends_ite (fun _ => ends_pure _ fun s hs => hs.1 ▸ hs.2) fun hopen => ?_
  exact keeps_onward hopen (ends_waitFrom settings [] p.chain.stages)

/-- Between turns progress is always in order. -/
theorem Turn.orderly {s later : Session κ Progress} (h : Turn client s later)
    (hs : s.own.Orderly) : later.own.Orderly := by
  cases h with
  | seed ctx =>
    have hkeeps : Keeps (fun s => s.own.Orderly) (seedAll client ctx) := by
      intro s hs
      refine (ends_seedAll s.own).imp (fun _ h => h) ?_ ?_ s rfl
      · exact fun _ _ h => h.1.orderly hs
      · exact fun _ _ h => h.orderly hs
    exact hkeeps.run hs
  | pass ctx => exact (keeps_pass client ctx).run hs
  | wait ctx settings => exact (keeps_wait client ctx settings).run hs
  | idle hown => exact hown ▸ hs

theorem Run.orderly {s later : Session κ Progress} (h : Run client s later)
    (hs : s.own.Orderly) : later.own.Orderly := by
  induction h with
  | refl => exact hs
  | tail _ hturn ih => exact hturn.orderly ih

/-- Of a kind that is no stage a run learns nothing. -/
theorem Run.sameAt {s later : Session κ Progress} (h : Run client s later) {kind : Kind}
    (hkind : kind ∉ s.own.chain.stages) : JobState.SameAt kind s.own.job later.own.job := by
  have hkeeps : later.own.chain = s.own.chain ∧
      JobState.SameAt kind s.own.job later.own.job := by
    refine h.keeps (fun p => p.chain = s.own.chain ∧ JobState.SameAt kind s.own.job p.job) ?_
      ⟨rfl, rfl, rfl⟩
    rintro ctx m later hstep ⟨hchain, hsame⟩
    have hnext := hstep.sameAt (hchain ▸ hkind)
    exact ⟨hstep.advances.chain.trans hchain, hnext.completion.trans hsame.completion,
      hnext.leftovers.trans hsame.leftovers⟩
  exact hkeeps.2

end BackupWatch.Job.Progress
