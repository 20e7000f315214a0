import BackupWatch.Proofs.Ends
import BackupWatch.Proofs.Job.Regular
import BackupWatch.Proofs.Job.Waiting

/-!
Waiting for a regular backup. Stage after stage is found complete: none that has begun is empty
again, a stage behind the first is not looked at before the one in front of it is complete, and no
look comes too late. So a wait succeeds, and leaves every stage with all of its objects complete.
-/

namespace BackupWatch.Job

open Act Cluster Time Watch

namespace Progress

/-- Every step of a wait asks for lists alone, and time goes on. -/
theorem Step.asks {t : Timeline} {ctx : Context} {asked : Request → Prop}
    (hasked : ∀ kind ns, asked (.list kind ns)) {s later : Session Journal Progress}
    (h : Step t.client ctx s later) : Session.Asks asked s later := by
  have hpermits := Session.permits_asks (σ := JobState) t asked
  have hmove : Session.Asks asked (s.focus Progress.job) (later.focus Progress.job) := by
    cases h with
    | pass millis => exact Session.asks_pass _ millis
    | seed _ => exact (moves_seed hpermits Session.asks_own ctx _ (hasked _) _ trivial).1
    | check _ => exact (moves_check hpermits Session.asks_own ctx _ (hasked _) _ trivial).1
    | finish _ => exact Session.asks_pass _ 0
  exact ⟨hmove.clock, hmove.journal⟩

theorem Path.asks {t : Timeline} {ctx : Context} {asked : Request → Prop}
    (hasked : ∀ kind ns, asked (.list kind ns)) {s later : Session Journal Progress}
    (h : Path t.client ctx s later) : Session.Asks asked s later := by
  induction h with
  | refl => exact refl_of (Session.Asks asked) s
  | tail _ hstep ih => exact trans_of (Session.Asks asked) ih (hstep.asks hasked)

/-- A wait on a regular history, come to a place in the chain: the stages before are complete, and
of those behind none has started in vain. -/
structure Underway (t : Timeline) (ctx : Context) (settings : Poll.Settings) (seeded first : Nat)
    (before after : List Kind) (s : Session Journal Progress) : Prop where
  chain : s.own.chain = .forJob ctx
  stages : (Chain.forJob ctx).stages = before ++ after
  seededAt : ∀ kind ∈ (Chain.forJob ctx).stages, s.own.job.SeededAt t ctx seeded kind
  done : ∀ kind ∈ before, s.own.job.completion.get kind = ⟨true, true⟩
  complete : ∀ kind ∈ before, AllComplete t ctx seeded s.clock kind
  remaining : ∀ kind ∈ after, s.own.isDone kind = false
  seen : ∀ kind ∈ after, s.own.hasStarted kind = true →
    relevantAt t ctx seeded s.clock kind ≠ []
  begun : first ≤ s.clock
  soon : s.clock ≤ first + settings.timeout.ceilMillis + Poll.longestWait settings

section Underway

variable {t : Timeline} {ctx : Context} {settings : Poll.Settings} {seeded first : Nat}
variable {before after : List Kind} {kind : Kind} {s : Session Journal Progress}

/-- A wait before the deadline leaves a regular history in order. -/
theorem Underway.pass (hregular : Regular t ctx settings seeded first)
    (h : Underway t ctx settings seeded first before after s) {n : Nat}
    (hearly : (Duration.ofMillis s.clock).nanoseconds < Poll.deadline settings first)
    (hshort : n ≤ Poll.longestWait settings) :
    Underway t ctx settings seeded first before after (s.pass n) := by
  have hlater : s.clock ≤ s.clock + n := Nat.le_add_right _ n
  refine ⟨h.chain, h.stages, h.seededAt, h.done, ?_, h.remaining, ?_,
    Nat.le_trans h.begun hlater, ?_⟩
  · intro kind hkind
    have hstage : kind ∈ (Chain.forJob ctx).stages := h.stages ▸ List.mem_append_left after hkind
    exact hregular.allComplete_later hstage h.begun hlater (h.complete kind hkind)
  · intro kind hkind hstarted
    have hstage : kind ∈ (Chain.forJob ctx).stages := h.stages ▸ List.mem_append_right before hkind
    exact hregular.ne_nil_later hstage h.begun hlater (h.seen kind hkind hstarted)
  · have hbefore : s.clock ≤ first + settings.timeout.ceilMillis := by
      simp only [Poll.deadline, Duration.ofMillis, Duration.ceilMillis] at hearly ⊢
      omega
    exact Nat.add_le_add hbefore hshort

theorem Underway.mem_stages
    (h : Underway t ctx settings seeded first before (kind :: after) s) :
    kind ∈ (Chain.forJob ctx).stages := by
  rw [h.stages]
  exact List.mem_append_right before (List.mem_cons_self ..)

/-- Only the first stage may stay empty, and it has begun. -/
theorem Underway.fed (hregular : Regular t ctx settings seeded first)
    (h : Underway t ctx settings seeded first before (kind :: after) s)
    (hempty : (s.own.checkerAt before kind).mayStayEmpty = true) :
    relevantAt t ctx seeded s.clock kind ≠ [] := by
  cases hlast : before.getLast? with
  | none =>
    have hfirst : (Chain.forJob ctx).stages.head? = some kind := by
      rw [h.stages, List.getLast?_eq_none_iff.mp hlast]
      rfl
    exact hregular.ne_nil_later h.mem_stages (Nat.le_refl first) h.begun
      (hregular.begun kind hfirst)
  | some previous =>
    have hdone := h.done previous (List.mem_of_getLast? hlast)
    simp [checkerAt, stageChecker, hlast, hdone] at hempty

/-- A check at a place in the chain, and what it leaves of the other kinds. -/
structure Underway.Checked (t : Timeline) (ctx : Context) (seeded : Nat) (kind : Kind)
    (checker : Checker) (s later : Session Journal Progress) (o : Outcome) : Prop where
  run : onJob (Job.check t.client ctx checker) s = (.ok o, later)
  clock : later.clock = s.clock
  chain : later.own.chain = s.own.chain
  leftovers : later.own.job.leftovers = s.own.job.leftovers
  self : later.own.job.completion.get kind = ⟨o.started, o.finished⟩
  others : ∀ other ≠ kind,
    later.own.job.completion.get other = s.own.job.completion.get other
  started : o.started = true ↔ relevantAt t ctx seeded s.clock kind ≠ []
  finished : o.finished = true ↔
    (relevantAt t ctx seeded s.clock kind).countP isComplete = ctx.expectedUnits

/-- The next check on a regular history gives a result. -/
theorem Underway.exists_checked (hregular : Regular t ctx settings seeded first)
    (h : Underway t ctx settings seeded first before (kind :: after) s) :
    ∃ o later, Checked t ctx seeded kind (s.own.checkerAt before kind) s later o := by
  have hstage := h.mem_stages
  have hseen : (s.own.job.completion.get kind).started = true →
      relevantAt t ctx seeded s.clock kind ≠ [] := h.seen kind (List.mem_cons_self ..)
  obtain ⟨hstarted, hfinished⟩ := JobState.verdict_of_seen ctx (h.fed hregular) hseen
  have hinner : (s.focus Progress.job).own.SeededAt t ctx seeded
      (s.own.checkerAt before kind).kind := h.seededAt kind hstage
  obtain ⟨o, journal, hverdict, hrun⟩ := run_check_of_seededAt hinner
    (h.remaining kind (List.mem_cons_self ..)) (hregular.unfailed kind hstage s.clock h.begun)
  have hkind : o.kind = kind := by
    rw [hverdict]
    rfl
  refine ⟨o, withJob s { s.focus Progress.job with own := s.own.job.settle o, cluster := journal },
    by rw [run_onJob, hrun]; rfl, rfl, rfl, rfl, ?_, ?_, ?_, ?_⟩
  · change (s.own.job.completion.set o.kind _).get kind = _
    rw [hkind, PerKind.get_set_self]
  · intro other hne
    change (s.own.job.completion.set o.kind _).get other = _
    rw [hkind, PerKind.get_set_of_ne _ _ hne]
  · rw [hverdict]
    exact hstarted
  · rw [hverdict]
    exact hfinished

section Checked

variable {checker : Checker} {o : Outcome} {later : Session Journal Progress}
variable (hregular : Regular t ctx settings seeded first)
variable (h : Underway t ctx settings seeded first before (kind :: after) s)
variable (hcheck : Underway.Checked t ctx seeded kind checker s later o)

include h hcheck

/-- A check leaves the other stages as they were. -/
theorem Underway.Checked.get_other {other : Kind} (hother : other ∈ before ∨ other ∈ after) :
    later.own.job.completion.get other = s.own.job.completion.get other := by
  have hnodup := (Chain.forJob ctx).nodup_stages
  rw [h.stages, List.nodup_append, List.nodup_cons] at hnodup
  refine hcheck.others other ?_
  rcases hother with hmem | hmem
  · exact hnodup.2.2 other hmem kind (List.mem_cons_self ..)
  · rintro rfl
    exact hnodup.2.1.1 hmem

theorem Underway.Checked.seededAt : ∀ other ∈ (Chain.forJob ctx).stages,
    later.own.job.SeededAt t ctx seeded other := by
  intro other hother
  rw [JobState.SeededAt, hcheck.leftovers]
  exact h.seededAt other hother

theorem Underway.Checked.checkerAt :
    later.own.checkerAt before kind = s.own.checkerAt before kind := by
  unfold Progress.checkerAt stageChecker
  cases hlast : before.getLast? with
  | none => rfl
  | some previous => simp [hcheck.get_other h (Or.inl (List.mem_of_getLast? hlast))]

include hregular

/-- A check that finishes a stage has found it complete. -/
theorem Underway.Checked.next (hfinished : o.finished = true) :
    Underway t ctx settings seeded first (before ++ [kind]) after later := by
  have hall : AllComplete t ctx seeded later.clock kind := by
    rw [hcheck.clock]
    exact hregular.allComplete_of_count h.mem_stages h.begun
      (Nat.le_of_eq (hcheck.finished.mp hfinished).symm)
  have hstarted : o.started = true := by
    rw [hcheck.started, ← hcheck.clock]
    exact hall.ne_nil
  refine ⟨hcheck.chain.trans h.chain, by rw [h.stages, List.append_assoc]; rfl,
    hcheck.seededAt h, ?_, ?_, ?_, ?_, hcheck.clock ▸ h.begun, hcheck.clock ▸ h.soon⟩
  · intro other hother
    rcases List.mem_append.mp hother with hmem | hmem
    · exact (hcheck.get_other h (Or.inl hmem)).trans (h.done other hmem)
    · rw [List.mem_singleton.mp hmem, hcheck.self, hstarted, hfinished]
  · intro other hother
    rcases List.mem_append.mp hother with hmem | hmem
    · rw [hcheck.clock]
      exact h.complete other hmem
    · exact List.mem_singleton.mp hmem ▸ hall
  · intro other hother
    rw [isDone, hcheck.get_other h (Or.inr hother)]
    exact h.remaining other (List.mem_cons_of_mem kind hother)
  · intro other hother hstarted
    rw [Progress.hasStarted, hcheck.get_other h (Or.inr hother)] at hstarted
    rw [hcheck.clock]
    exact h.seen other (List.mem_cons_of_mem kind hother) hstarted

/-- A check that leaves a stage pending leaves the wait where it is, and comes in time. -/
theorem Underway.Checked.stay (hpending : ¬ o.finished = true) :
    Underway t ctx settings seeded first before (kind :: after) later ∧
      (Duration.ofMillis later.clock).nanoseconds < Poll.deadline settings first := by
  have hopen : ¬ AllComplete t ctx seeded later.clock kind := by
    intro hall
    refine hpending (hcheck.finished.mpr ?_)
    rw [← hcheck.clock, ← hall.length, List.countP_eq_length]
    intro o ho
    simpa [isComplete] using hall.completed o ho
  refine ⟨⟨hcheck.chain.trans h.chain, h.stages, hcheck.seededAt h, ?_, ?_, ?_, ?_,
    hcheck.clock ▸ h.begun, hcheck.clock ▸ h.soon⟩, hregular.early h.mem_stages hopen⟩
  · intro other hother
    exact (hcheck.get_other h (Or.inl hother)).trans (h.done other hother)
  · rw [hcheck.clock]
    exact h.complete
  · intro other hother
    rcases List.mem_cons.mp hother with rfl | hmem
    · rw [isDone, hcheck.self]
      simpa using hpending
    · rw [isDone, hcheck.get_other h (Or.inr hmem)]
      exact h.remaining other hother
  · intro other hother hstarted
    rw [hcheck.clock]
    rcases List.mem_cons.mp hother with rfl | hmem
    · rw [Progress.hasStarted, hcheck.self] at hstarted
      exact hcheck.started.mp hstarted
    · rw [Progress.hasStarted, hcheck.get_other h (Or.inr hmem)] at hstarted
      exact h.seen other hother hstarted

end Checked

/-- A look takes no time. A stage that it does not finish is waited for, but not for long. -/
theorem ends_look (hregular : Regular t ctx settings seeded first) (checker : Checker)
    (clock : Nat) :
    Ends (fun s => (Underway t ctx settings seeded first before (kind :: after) s ∧
        s.own.checkerAt before kind = checker) ∧ s.clock = clock)
      (look t.client ctx checker)
      (fun status s => if status.done
        then Underway t ctx settings seeded first (before ++ [kind]) after s
        else (Underway t ctx settings seeded first before (kind :: after) s ∧
          s.own.checkerAt before kind = checker) ∧ clock ≤ s.clock ∧
            (Duration.ofMillis s.clock).nanoseconds < Poll.deadline settings first)
      fun _ _ => False := by
  rintro s ⟨⟨hunderway, rfl⟩, rfl⟩
  obtain ⟨o, later, hcheck⟩ := hunderway.exists_checked hregular
  unfold look
  rw [run_bind, hcheck.run]
  refine .ok ?_
  dsimp only
  split
  · next hfinished => exact hcheck.next hregular hunderway hfinished
  · next hpending =>
    obtain ⟨hstay, hearly⟩ := hcheck.stay hregular hunderway hpending
    exact ⟨⟨hstay, hcheck.checkerAt hunderway⟩, Nat.le_of_eq hcheck.clock.symm, hearly⟩

structure Completed (t : Timeline) (ctx : Context) (seeded : Nat) (s : Session Journal Progress) :
    Prop where
  finished : s.own.finished = true
  complete : ∀ kind ∈ (Chain.forJob ctx).stages, AllComplete t ctx seeded s.clock kind

/-- By induction on the stages: each is complete before its deadline, so that no wait fails. -/
theorem Underway.ends_waitFrom (hregular : Regular t ctx settings seeded first)
    (hfits : Poll.Fits settings first) (before after : List Kind) :
    Ends (Underway t ctx settings seeded first before after)
      (waitFrom t.client ctx settings before.getLast? after)
      (fun _ => Completed t ctx seeded) fun _ _ => False := by
  induction after generalizing before with
  | nil =>
    intro s hs
    refine .ok ⟨rfl, fun kind hkind => ?_⟩
    have hstages := hs.stages
    rw [List.append_nil] at hstages
    exact hs.complete kind (hstages ▸ hkind)
  | cons kind after ih =>
    have hnext := ih (before ++ [kind])
    rw [List.getLast?_concat] at hnext
    unfold waitFrom
    refine ends_bind (fun p s => Underway t ctx settings seeded first before (kind :: after) s ∧
      s.own.checkerAt before kind = p.checkerAt before kind)
      (ends_own fun s hs => ⟨hs, rfl⟩) fun p => ?_
    refine ends_bind _ (Poll.ends_run_in_time settings _ hfits.looks ?_ ?_ ?_
      (ends_look hregular _)) fun _ => hnext
    · intro s hs
      have hbegun := hs.1.begun
      simp only [Poll.deadline, Duration.ofMillis]
      omega
    · intro s hs
      have hsoon := hs.1.soon
      refine Nat.lt_of_le_of_lt ?_ hfits.deadlines
      simp only [Poll.deadline, Duration.ofMillis]
      omega
    · exact fun s n hs hearly hshort => ⟨hs.1.pass hregular hearly hshort, hs.2⟩

end Underway

/-- Progress that has not been waited for. Leftovers that it has were recorded at some time. -/
structure Primed (t : Timeline) (ctx : Context) (seeded : Nat) (p : Progress) : Prop where
  chain : p.chain = .forJob ctx
  unmarked : p.finished = false
  untouched : ∀ kind, p.job.Untouched kind
  seededAt : ∀ kind, p.job.leftovers.isBuilt kind = true → p.job.SeededAt t ctx seeded kind

section Primed

variable {t : Timeline} {ctx : Context} {settings : Poll.Settings} {seeded first : Nat}

theorem primed_fresh (t : Timeline) (ctx : Context) (seeded : Nat) :
    (fresh (.forJob ctx)).Primed t ctx seeded := by
  refine ⟨rfl, rfl, fun kind => PerKind.get_same _ kind, fun kind hbuilt => ?_⟩
  have hnone : (fresh (.forJob ctx)).job.leftovers.isBuilt kind = false := by
    cases kind <;> rfl
  rw [hnone] at hbuilt
  cases hbuilt

/-- At one time leftovers can be recorded kind by kind. -/
theorem Primed.seed {s : Session Journal Progress} (h : s.own.Primed t ctx s.clock) (kind : Kind) :
    ∃ later, onJob (Job.seed t.client ctx kind) s = (.ok (), later) ∧
      later.clock = s.clock ∧ later.own.Primed t ctx s.clock := by
  have hseed := seeding t.client ctx kind (s.focus Progress.job)
  obtain ⟨journal, hlist⟩ := run_listInScope t ctx kind (s.focus Progress.job)
  rw [run_onJob]
  generalize Job.seed t.client ctx kind (s.focus Progress.job) = result at hseed
  cases hseed with
  | built _ => exact ⟨_, rfl, rfl, h⟩
  | refused _ hlist' _ => cases hlist.symm.trans hlist'
  | listed hopen hlist' _ =>
    cases hlist.symm.trans hlist'
    refine ⟨_, rfl, rfl, h.chain, h.unmarked, h.untouched, fun other hbuilt => ?_⟩
    by_cases hsame : other = kind
    · subst hsame
      have hunbuilt : s.own.job.leftovers.isBuilt other = false := hopen
      change (s.own.job.note other _).leftovers.entries.get other = _
      unfold JobState.note Leftovers.record
      rw [if_neg (by simp [hunbuilt])]
      exact PerKind.get_set_self ..
    · have hnote := JobState.sameAt_note s.own.job hsame (listingAt t ctx s.clock kind)
      have hbefore : s.own.job.leftovers.isBuilt other = true := by
        rw [Leftovers.isBuilt, ← hnote.leftovers]
        exact hbuilt
      exact hnote.leftovers.trans (h.seededAt other hbefore)

variable (t ctx seeded first) in
/-- Leftovers that are missing are recorded in no time. -/
theorem ends_seedAll_primed :
    Ends (fun s => s.own.Primed t ctx seeded ∧ (s.own.Seeded ∨ s.clock = seeded) ∧ s.clock = first)
      (seedAll t.client ctx)
      (fun _ s => s.own.Primed t ctx seeded ∧ s.own.Seeded ∧ s.clock = first)
      fun _ _ => False := by
  rintro s ⟨hprimed, hseeded, hclock⟩
  rcases hseeded with hseeded | rfl
  · rw [seedAll_of_seeded hseeded]
    exact .ok ⟨hprimed, hseeded, hclock⟩
  · have hseeds : Ends (fun later => later.own.Primed t ctx s.clock ∧ later.clock = s.clock)
        (seedAll t.client ctx)
        (fun _ later => later.own.Primed t ctx s.clock ∧ later.clock = s.clock)
        fun _ _ => False := by
      refine ends_bind (fun _ later => later.own.Primed t ctx s.clock ∧ later.clock = s.clock)
        (ends_own fun _ h => h) fun _ => ends_forM _ fun kind m hm => ?_
      obtain ⟨later, hrun, hlater, hprimed⟩ := Primed.seed (hm.2 ▸ hm.1) kind
      rw [hrun]
      exact .ok ⟨hm.2 ▸ hprimed, hlater.trans hm.2⟩
    have hlead : Leads (Path t.client ctx) (fun m => m.own.Primed t ctx s.clock ∧
        m.clock = s.clock) (seedAll t.client ctx) _ :=
      (leads_seedAll (Chain.forJob ctx)).imp (fun m hm => hm.1.chain) fun _ _ h => h
    refine (hseeds.and_leads hlead).imp (fun _ h => h) (fun _ m hm => ?_) (fun _ _ h => h) s
      ⟨hprimed, rfl⟩
    exact ⟨hm.1.1, hm.2.2, hm.1.2.trans hclock⟩

/-- A wait begins with all leftovers recorded and no stage touched. -/
theorem Primed.underway {s : Session Journal Progress} (h : s.own.Primed t ctx seeded)
    (hseeded : s.own.Seeded) (hclock : s.clock = first) :
    Underway t ctx settings seeded first [] (Chain.forJob ctx).stages s := by
  have hbuilt : ∀ kind ∈ (Chain.forJob ctx).stages, s.own.job.leftovers.isBuilt kind = true := by
    rwa [Seeded, h.chain] at hseeded
  refine ⟨h.chain, rfl, fun kind hkind => h.seededAt kind (hbuilt kind hkind), by simp, by simp,
    fun kind _ => not_isDone_of_untouched (h.untouched kind), ?_, Nat.le_of_eq hclock.symm, ?_⟩
  · intro kind _ hstarted
    rw [Progress.hasStarted, show s.own.job.completion.get kind = _ from h.untouched kind]
      at hstarted
    cases hstarted
  · omega

/-- On a regular history a wait succeeds, and leaves all data complete. -/
theorem ends_wait (hregular : Regular t ctx settings seeded first)
    (hfits : Poll.Fits settings first) :
    Ends (fun s => s.own.Primed t ctx seeded ∧ (s.own.Seeded ∨ s.clock = seeded) ∧ s.clock = first)
      (wait t.client ctx settings) (fun _ => Completed t ctx seeded) fun _ _ => False := by
  intro s hs
  unfold wait
  rw [run_bind, run_own]
  simp only [hs.1.unmarked, hs.1.chain, Bool.false_eq_true, if_false]
  refine ends_bind _ (ends_seedAll_primed t ctx seeded first) (fun _ => ?_) s hs
  refine (Underway.ends_waitFrom hregular hfits [] _).imp ?_ (fun _ _ h => h) fun _ _ h => h
  exact fun m hm => hm.1.underway hm.2.1 hm.2.2

end Primed
end Progress
end BackupWatch.Job
