import BackupWatch.Proofs.Job.Progress
import BackupWatch.Proofs.Timeless

/-!
Waiting agrees with passing. A pass over a chain whose first stages have finished comes to the
next stage without a request, and its checker is the one that a wait has fixed for that stage; so
each look of a wait is the check of one more pass, and the passes are as many as the looks that
did not finish their stage, and one.
-/

namespace BackupWatch.Job

open Act Cluster Time Watch

variable {κ σ : Type} {client : Client κ}

theorem timeless_listInScope (hclient : client.Timeless) (ctx : Context) (kind : Kind) :
    Timeless (listInScope client ctx kind : Act κ σ (List Object)) := by
  have hask : ∀ ns, Timeless (client.ask (.list kind ns) : Act κ σ (List Object)) :=
    fun ns => timeless_ask hclient (.list kind ns)
  unfold listInScope
  cases kind.scope with
  | cluster => exact hask none
  | backupNamespace => exact hask _
  | includedNamespaces =>
    have hflat : Timeless (do
        let listings ← ctx.included.names.mapM fun ns => client.ask (.list kind (some ns))
        return listings.flatten : Act κ σ (List Object)) :=
      timeless_bind (timeless_mapM _ fun ns => hask (some ns)) fun _ => timeless_pure _
    exact timeless_ite (timeless_bind (timeless_throw _) fun _ => hflat) hflat

/-- A check of a timeless client does not depend on the clock. -/
theorem timeless_check (hclient : client.Timeless) (ctx : Context) (checker : Checker) :
    Timeless (check client ctx checker) := by
  unfold check
  refine timeless_bind timeless_own fun job => timeless_ite (timeless_pure _) ?_
  refine timeless_bind (timeless_listInScope hclient ctx _) fun listing => ?_
  refine timeless_bind (timeless_bind timeless_own fun _ => timeless_setOwn _) fun _ => ?_
  refine timeless_bind timeless_own fun noted => timeless_bind (timeless_ofExcept _) fun tally => ?_
  exact timeless_bind (timeless_setOwn _) fun _ => timeless_pure _

namespace Progress

variable {ctx : Context}

/-- The outcomes of a pass that has come through some stages before. -/
def ahead (outcomes : List Outcome)
    (result : Except Failure (List Outcome) × Session κ Progress) :
    Except Failure (List Outcome) × Session κ Progress :=
  (result.1.map (outcomes ++ ·), result.2)

theorem ahead_nil (result : Except Failure (List Outcome) × Session κ Progress) :
    ahead [] result = result := by
  rcases result with ⟨_ | _, _⟩ <;> rfl

theorem ahead_ahead (first second : List Outcome)
    (result : Except Failure (List Outcome) × Session κ Progress) :
    ahead first (ahead second result) = ahead (first ++ second) result := by
  rcases result with ⟨_ | outcomes, _⟩
  · rfl
  · simp [ahead, Except.map]

variable (client ctx) in
theorem run_passFrom_cons (previous : Option Kind) (kind : Kind) (rest : List Kind)
    (t : Session κ Progress) :
    passFrom client ctx previous (kind :: rest) t =
      match onJob (Job.check client ctx (stageChecker t.own.job previous kind)) t with
      | (.error f, later) => (.error f, later)
      | (.ok o, later) =>
        if o.finished then ahead [o] (passFrom client ctx (some kind) rest later)
        else (.ok [o], later) := by
  rw [passFrom, run_bind, run_own]
  simp only
  rw [run_bind]
  rcases onJob (Job.check client ctx (stageChecker t.own.job previous kind)) t with ⟨f | o, later⟩
  · rfl
  · simp only
    split
    · rw [run_bind]
      rcases passFrom client ctx (some kind) rest later with ⟨_ | _, _⟩ <;> rfl
    · rfl

variable (client ctx) in
/-- A stage that has finished costs a pass nothing. -/
theorem passFrom_of_isDone (previous : Option Kind) {kind : Kind} (rest : List Kind)
    {t : Session κ Progress} (hdone : t.own.isDone kind = true) :
    ∃ o, passFrom client ctx previous (kind :: rest) t =
      ahead [o] (passFrom client ctx (some kind) rest t) := by
  have hcheck := checking client ctx (stageChecker t.own.job previous kind)
    (t.focus Progress.job)
  generalize hrun : Job.check client ctx (stageChecker t.own.job previous kind)
    (t.focus Progress.job) = result at hcheck
  have hnot : ¬ (t.own.job.completion.get kind).finished = false := by
    rw [show (t.own.job.completion.get kind).finished = true from hdone]
    simp
  cases hcheck with
  | cached _ =>
    refine ⟨.cached ctx kind (t.own.job.completion.get kind), ?_⟩
    rw [run_passFrom_cons, run_onJob, hrun]
    rfl
  | refused hopen _ _ => exact absurd hopen hnot
  | failed hopen _ _ _ => exact absurd hopen hnot
  | counted hopen _ _ _ _ => exact absurd hopen hnot

variable (client ctx) in
/-- Stages that are done cost a pass nothing: it goes on from the first open one. -/
theorem passFrom_append (previous : Option Kind) (before after : List Kind)
    {t : Session κ Progress} (hdone : ∀ kind ∈ before, t.own.isDone kind = true) :
    ∃ outcomes, passFrom client ctx previous (before ++ after) t =
      ahead outcomes (passFrom client ctx (before.getLast?.or previous) after t) := by
  induction before generalizing previous with
  | nil => exact ⟨[], (ahead_nil _).symm⟩
  | cons kind rest ih =>
    obtain ⟨o, ho⟩ := passFrom_of_isDone client ctx previous (rest ++ after)
      (hdone kind (List.mem_cons_self ..))
    obtain ⟨outcomes, houtcomes⟩ := ih (some kind)
      fun other hother => hdone other (List.mem_cons_of_mem kind hother)
    refine ⟨[o] ++ outcomes, ?_⟩
    rw [List.cons_append, ho, houtcomes, ahead_ahead]
    cases rest with
    | nil => rfl
    | cons next others =>
      rw [List.getLast?_cons_cons]
      simp [List.getLast?_cons]

theorem seed_of_isBuilt {kind : Kind} {t : Session κ JobState}
    (h : t.own.leftovers.isBuilt kind = true) : Job.seed client ctx kind t = (.ok (), t) := by
  simp only [Job.seed, run_bind, run_own, h, if_true, run_pure]

/-- A kind with a blacklist is not seeded again. -/
theorem seeds_of_isBuilt (kinds : List Kind) {t : Session κ Progress}
    (hbuilt : ∀ kind ∈ kinds, t.own.job.leftovers.isBuilt kind = true) :
    (kinds.forM fun kind => onJob (Job.seed client ctx kind)) t = (.ok (), t) := by
  induction kinds with
  | nil => rfl
  | cons kind rest ih =>
    have hseed : onJob (Job.seed client ctx kind) t = (.ok (), t) := by
      rw [run_onJob, seed_of_isBuilt (hbuilt kind (List.mem_cons_self ..))]
      rfl
    change (onJob (Job.seed client ctx kind) >>= fun _ =>
      rest.forM fun other => onJob (Job.seed client ctx other)) t = _
    rw [run_bind, hseed]
    exact ih fun other hother => hbuilt other (List.mem_cons_of_mem kind hother)

/-- A seeded chain is not seeded again. -/
theorem seedAll_of_seeded {t : Session κ Progress} (h : t.own.Seeded) :
    seedAll client ctx t = (.ok (), t) := by
  unfold seedAll
  rw [run_bind, run_own]
  exact seeds_of_isBuilt t.own.chain.stages h

variable (client ctx) in
/-- A pass that starts with some stages finished goes on where these end. -/
theorem pass_of_atStage {t : Session κ Progress} {before after : List Kind}
    (hat : t.own.AtStage before after) (hopen : t.own.finished = false) :
    ∃ outcomes, pass client ctx t =
      ahead outcomes (passFrom client ctx before.getLast? after t) := by
  obtain ⟨outcomes, houtcomes⟩ := passFrom_append client ctx none before after hat.done
  refine ⟨outcomes, ?_⟩
  unfold pass
  rw [run_bind, run_own]
  simp only [hopen, Bool.false_eq_true, if_false]
  rw [run_bind, seedAll_of_seeded hat.seeded, hat.stages]
  simpa using houtcomes

/-- Passes one after the other, the first of which may start within the chain. All but the last
end without a failure, and with stages to go. -/
inductive Rounds (client : Client κ) (ctx : Context) :
    Act κ Progress (List Outcome) → Nat → Session κ Progress →
      Except Failure (List Outcome) × Session κ Progress → Prop
  | last (first : Act κ Progress (List Outcome)) (s : Session κ Progress) :
      Rounds client ctx first 1 s (first s)
  | next {first : Act κ Progress (List Outcome)} {n : Nat} {s later : Session κ Progress}
      {outcomes : List Outcome} {result : Except Failure (List Outcome) × Session κ Progress}
      (run : first s = (.ok outcomes, later)) (unfinished : later.own.finished = false)
      (rest : Rounds client ctx (pass client ctx) n later result) :
      Rounds client ctx first (n + 1) s result

abbrev Passes (client : Client κ) (ctx : Context) : Nat → Session κ Progress →
    Except Failure (List Outcome) × Session κ Progress → Prop :=
  Rounds client ctx (pass client ctx)

theorem Rounds.pos {first : Act κ Progress (List Outcome)} {n : Nat} {s : Session κ Progress}
    {result : Except Failure (List Outcome) × Session κ Progress}
    (h : Rounds client ctx first n s result) : 1 ≤ n := by
  cases h <;> omega

/-- Outcomes of finished stages ahead of the first pass do not change the number of passes. -/
theorem Rounds.ahead {first whole : Act κ Progress (List Outcome)} {n : Nat}
    {s t : Session κ Progress} {result : Except Failure (List Outcome) × Session κ Progress}
    (h : Rounds client ctx first n t result) {before : List Outcome}
    (hwhole : whole s = Progress.ahead before (first t)) :
    ∃ outcomes, Rounds client ctx whole n s (Progress.ahead outcomes result) := by
  cases h with
  | last => exact ⟨before, hwhole ▸ .last whole s⟩
  | next hrun hopen hrest =>
    refine ⟨[], ?_⟩
    rw [ahead_nil]
    rw [hrun] at hwhole
    exact .next hwhole hopen hrest

/-- What a wait makes of its last pass: the failure of the pass, success if the pass has finished
the chain, and else the time-out of the last stage that was looked at. -/
inductive Verdict (ctx : Context) (settings : Poll.Settings) :
    Except Failure (List Outcome) → (finished : Bool) → Except Failure Unit → Prop
  | failed (f : Failure) (finished : Bool) : Verdict ctx settings (.error f) finished (.error f)
  | finished (outcomes : List Outcome) : Verdict ctx settings (.ok outcomes) true (.ok ())
  | timedOut {outcomes : List Outcome} {o : Outcome} (last : outcomes.getLast? = some o) :
      Verdict ctx settings (.ok outcomes) false
        (.error (.error (.timeout (operation ctx o.kind) settings.timeout o.text)))

structure Agrees (ctx : Context) (settings : Poll.Settings)
    (waited : Except Failure Unit × Session κ Progress)
    (passed : Except Failure (List Outcome) × Session κ Progress) : Prop where
  own : waited.2.own = passed.2.own
  cluster : waited.2.cluster = passed.2.cluster
  verdict : Verdict ctx settings passed.1 passed.2.own.finished waited.1

theorem Agrees.ahead {settings : Poll.Settings} {waited : Except Failure Unit × Session κ Progress}
    {passed : Except Failure (List Outcome) × Session κ Progress}
    (h : Agrees ctx settings waited passed) (outcomes : List Outcome) :
    Agrees ctx settings waited (Progress.ahead outcomes passed) := by
  refine ⟨h.own, h.cluster, ?_⟩
  have hverdict := h.verdict
  rcases passed with ⟨f | others, later⟩
  · exact hverdict
  · generalize hfinished : later.own.finished = finished at hverdict
    change Verdict ctx settings (.ok (outcomes ++ others)) later.own.finished waited.1
    rw [hfinished]
    rcases waited with ⟨result, end'⟩
    cases hverdict with
    | finished _ => exact .finished _
    | timedOut hlast => exact .timedOut (by rw [List.getLast?_append, hlast]; rfl)

/-- A wait does what some passes do, the first of which may start within the chain. -/
def Matched (client : Client κ) (ctx : Context) (settings : Poll.Settings)
    (first : Act κ Progress (List Outcome)) (s : Session κ Progress)
    (waited : Except Failure Unit × Session κ Progress) : Prop :=
  ∃ n passed, Rounds client ctx first n s passed ∧ Agrees ctx settings waited passed

section Matched

variable {settings : Poll.Settings} {first : Act κ Progress (List Outcome)}
variable {waited : Except Failure Unit × Session κ Progress}

theorem Matched.ahead {whole : Act κ Progress (List Outcome)} {s t : Session κ Progress}
    (h : Matched client ctx settings first t waited) {before : List Outcome}
    (hwhole : whole s = Progress.ahead before (first t)) :
    Matched client ctx settings whole s waited := by
  obtain ⟨n, passed, hrounds, hagrees⟩ := h
  obtain ⟨outcomes, hrounds'⟩ := hrounds.ahead hwhole
  exact ⟨n, _, hrounds', hagrees.ahead outcomes⟩

theorem Matched.next {s later : Session κ Progress} {outcomes : List Outcome}
    (h : Matched client ctx settings (pass client ctx) later waited)
    (hrun : first s = (.ok outcomes, later)) (hopen : later.own.finished = false) :
    Matched client ctx settings first s waited := by
  obtain ⟨n, passed, hrounds, hagrees⟩ := h
  exact ⟨n + 1, passed, .next hrun hopen hrounds, hagrees⟩

end Matched

/-- A wait that is cut off: the clock cannot hold a deadline, or the counter the looks that fit in
the time-out. -/
inductive Overruns (settings : Poll.Settings) : Except Failure Unit × Session κ Progress → Prop
  | deadline {s : Session κ Progress}
      (late : (Duration.ofSeconds Poll.clockEnd).nanoseconds ≤ Poll.deadline settings s.clock) :
      Overruns settings (.error (.fault .deadlineOutOfRange), s)
  | attempts {s : Session κ Progress}
      (long : (Poll.attemptLimit - 1) * Poll.stride settings < settings.timeout.nanoseconds) :
      Overruns settings (.error (.fault .attemptsOutOfRange), s)

/-- The outcome of a check carries the checker's kind. -/
theorem kind_check {checker : Checker} {s : Session κ Progress} {o : Outcome}
    (h : (onJob (Job.check client ctx checker) s).1 = .ok o) : o.kind = checker.kind := by
  have hcheck := checking client ctx checker (s.focus Progress.job)
  generalize hrun : Job.check client ctx checker (s.focus Progress.job) = result at hcheck
  rw [run_onJob, hrun] at h
  cases hcheck with
  | cached _ =>
    cases h
    rfl
  | refused _ _ _ => cases h
  | failed _ _ _ _ => cases h
  | counted _ _ _ _ hverdict =>
    cases h
    rw [hverdict]
    rfl

/-- One check in two sessions that differ in time alone, and what it leaves behind in the first. -/
structure Looks (client : Client κ) (ctx : Context) (checker : Checker) (s t : Session κ Progress)
    (result : Except Failure Outcome) (later later' : Session κ Progress) : Prop where
  waiting : onJob (Job.check client ctx checker) s = (result, later)
  passing : onJob (Job.check client ctx checker) t = (result, later')
  alike : later.Alike later'
  advances : s.own.Advances later.own
  finished : later.own.finished = s.own.finished
  clock : s.clock ≤ later.clock
  kind : ∀ o, result = .ok o → o.kind = checker.kind
  isDone : ∀ o, result = .ok o → later.own.isDone checker.kind = o.finished

theorem exists_looks (hclient : client.Timeless) (ctx : Context) {before after : List Kind}
    {kind : Kind} {s t : Session κ Progress} (hat : s.own.AtStage before (kind :: after))
    (halike : s.Alike t) :
    ∃ result later later',
      Looks client ctx (s.own.checkerAt before kind) s t result later later' := by
  generalize hchecker : s.own.checkerAt before kind = checker
  have htimeless : Timeless (onJob (Job.check client ctx checker)) :=
    timeless_within (timeless_check hclient ctx checker)
  obtain ⟨hresult, hlater⟩ := htimeless s t halike
  have hstep : Step client ctx s (onJob (Job.check client ctx checker) s).2 :=
    hchecker ▸ .check s hat
  have hclock : s.clock ≤ (onJob (Job.check client ctx checker) s).2.clock :=
    (moves_check (Session.permits_notBefore client fun _ => True) (fun s _ => Nat.le_refl s.clock)
      ctx checker (fun _ => trivial) (s.focus Progress.job) trivial).1
  refine ⟨(onJob (Job.check client ctx checker) s).1, (onJob (Job.check client ctx checker) s).2,
    (onJob (Job.check client ctx checker) t).2, ?_⟩
  exact ⟨rfl, Prod.ext hresult.symm rfl, hlater, hstep.advances, rfl, hclock,
    fun o ho => kind_check ho, fun o ho => isDone_check ho⟩

section Stage

variable {settings : Poll.Settings} {before rest : List Kind} {kind : Kind}

/-- What a wait for a stage does next, and what a wait for the chain does behind it. -/
abbrev waitOn (client : Client κ) (ctx : Context) (settings : Poll.Settings) (kind : Kind)
    (rest : List Kind) (poll : Act κ Progress Poll.Report) : Act κ Progress Unit := do
  let _ ← poll
  waitFrom client ctx settings (some kind) rest

theorem run_waitOn_of_error {poll : Act κ Progress Poll.Report} {s later : Session κ Progress}
    {f : Failure} (h : poll s = (.error f, later)) :
    waitOn client ctx settings kind rest poll s = (.error f, later) := by
  rw [waitOn, run_bind, h]

theorem run_waitOn_congr {poll other : Act κ Progress Poll.Report} {s : Session κ Progress}
    (h : poll s = other s) :
    waitOn client ctx settings kind rest poll s = waitOn client ctx settings kind rest other s := by
  rw [waitOn, run_bind, h, waitOn, run_bind]

theorem run_waitOn_look (checker : Checker) (started left attempts : Nat)
    (s : Session κ Progress) :
    waitOn client ctx settings kind rest (Poll.loop settings (operation ctx kind)
        (look client ctx checker) started (left + 1) attempts) s =
      match onJob (Job.check client ctx checker) s with
      | (.error f, later) => (.error f, later)
      | (.ok o, later) =>
        if o.finished then waitFrom client ctx settings (some kind) rest later
        else if Poll.deadline settings started ≤ (Duration.ofMillis later.clock).nanoseconds then
          (.error (.error (.timeout (operation ctx kind) settings.timeout o.text)), later)
        else waitOn client ctx settings kind rest (Poll.loop settings (operation ctx kind)
          (look client ctx checker) started left (attempts + 1))
          (later.pass ((settings.pace.min ⟨Poll.deadline settings started -
            (Duration.ofMillis later.clock).nanoseconds⟩).min longestSleep).ceilMillis) := by
  rw [waitOn, run_bind, Poll.loop, run_bind, look, run_bind]
  rcases onJob (Job.check client ctx checker) s with ⟨f | o, later⟩
  · rfl
  · simp only [run_pure]
    rw [run_bind, run_clock]
    by_cases hdone : o.finished = true
    · simp only [hdone, if_true, run_pure]
    · simp only [hdone, Bool.false_eq_true, if_false]
      by_cases hlate : Poll.deadline settings started ≤ (Duration.ofMillis later.clock).nanoseconds
      · simp only [hlate, if_true, run_fail]
      · simp only [hlate, if_false]
        rw [run_bind, run_sleep, waitOn, run_bind]

/-- The looks at a stage and the checks of as many passes. The induction is on the looks to go;
the two sessions differ in time alone, and the checker is right for both. -/
theorem matched_loop (hclient : client.Timeless)
    (hrest : ∀ {s t : Session κ Progress}, s.own.AtStage (before ++ [kind]) rest →
      s.own.finished = false → s.Alike t →
      ¬ Overruns settings (waitFrom client ctx settings (some kind) rest s) →
      Matched client ctx settings (passFrom client ctx (some kind) rest) t
        (waitFrom client ctx settings (some kind) rest s))
    {checker : Checker} {started : Nat} (left attempts : Nat) {s t : Session κ Progress}
    (hat : s.own.AtStage before (kind :: rest)) (hopen : s.own.finished = false)
    (halike : s.Alike t) (hchecker : s.own.checkerAt before kind = checker)
    (hleft : settings.timeout.nanoseconds ≤ (Poll.attemptLimit - 1) * Poll.stride settings →
      Poll.Suffices settings started left s.clock)
    (hfits : ¬ Overruns settings (waitOn client ctx settings kind rest (Poll.loop settings
      (operation ctx kind) (look client ctx checker) started left attempts) s)) :
    Matched client ctx settings (passFrom client ctx before.getLast? (kind :: rest)) t
      (waitOn client ctx settings kind rest (Poll.loop settings (operation ctx kind)
        (look client ctx checker) started left attempts) s) := by
  induction left generalizing attempts s t with
  | zero =>
    have hlong : (Poll.attemptLimit - 1) * Poll.stride settings < settings.timeout.nanoseconds :=
      Nat.lt_of_not_le fun hshort => Nat.lt_irrefl 0 (hleft hshort).some_left
    exact absurd (.attempts hlong) hfits
  | succ left ih =>
    subst hchecker
    obtain ⟨result, later, later', hlook⟩ := exists_looks hclient ctx hat halike
    have hat' := hlook.advances.atStage hat
    have hopen' : later'.own.finished = false := hlook.alike.own ▸ hlook.finished.trans hopen
    have hpass := run_passFrom_cons client ctx before.getLast? kind rest t
    rw [← halike.own] at hpass
    rw [show stageChecker s.own.job before.getLast? kind = s.own.checkerAt before kind from rfl,
      hlook.passing] at hpass
    rw [run_waitOn_look, hlook.waiting] at hfits ⊢
    cases result with
    | error f =>
      simp only at hpass
      exact ⟨1, (.error f, later'), hpass ▸ .last _ t, hlook.alike.own, hlook.alike.cluster,
        .failed f _⟩
    | ok o =>
      rcases hdone : o.finished with _ | _
      · by_cases hlate :
          Poll.deadline settings started ≤ (Duration.ofMillis later.clock).nanoseconds
        · simp only [hdone, hlate, Bool.false_eq_true, if_true, if_false] at hfits hpass ⊢
          refine ⟨1, (.ok [o], later'), hpass ▸ .last _ t, hlook.alike.own, hlook.alike.cluster, ?_⟩
          have hkind : o.kind = kind := hlook.kind o rfl
          rw [hopen', ← hkind]
          exact .timedOut rfl
        · simp only [hdone, hlate, Bool.false_eq_true, if_false] at hfits hpass ⊢
          -- The wait between two looks is kept a variable: nothing hangs on how long it is.
          have hagain : ∀ millis, (settings.timeout.nanoseconds ≤
                (Poll.attemptLimit - 1) * Poll.stride settings →
                Poll.Suffices settings started left (later.pass millis).clock) →
              ¬ Overruns settings (waitOn client ctx settings kind rest (Poll.loop settings
                (operation ctx kind) (look client ctx (s.own.checkerAt before kind)) started left
                (attempts + 1)) (later.pass millis)) →
              Matched client ctx settings (passFrom client ctx before.getLast? (kind :: rest))
                later' (waitOn client ctx settings kind rest (Poll.loop settings
                  (operation ctx kind) (look client ctx (s.own.checkerAt before kind)) started left
                  (attempts + 1)) (later.pass millis)) := by
            intro millis hleft' hfits'
            have hpaused : (later.pass millis).own.AtStage before (kind :: rest) := hat'
            exact ih (attempts + 1) hpaused (hlook.finished.trans hopen) (hlook.alike.pass millis)
              (hlook.advances.checkerAt hat kind) hleft' hfits'
          obtain ⟨_, hresumed⟩ := pass_of_atStage client ctx (hlook.alike.own ▸ hat') hopen'
          have hmatched := hagain _ (fun hshort => (hleft hshort).next hlook.clock hlate) hfits
          exact (hmatched.ahead hresumed).next hpass hopen'
      · simp only [hdone, if_true] at hfits hpass ⊢
        have hdone' : later.own.isDone kind = true := (hlook.isDone o rfl).trans hdone
        exact (hrest (hat'.next hdone') (hlook.finished.trans hopen) hlook.alike hfits).ahead hpass

theorem run_waitFrom_cons (previous : Option Kind) (s : Session κ Progress) :
    waitFrom client ctx settings previous (kind :: rest) s =
      if (Duration.ofSeconds Poll.clockEnd).nanoseconds ≤ Poll.deadline settings s.clock then
        (.error (.fault .deadlineOutOfRange), s)
      else waitOn client ctx settings kind rest (Poll.loop settings (operation ctx kind)
        (look client ctx (stageChecker s.own.job previous kind))
        s.clock Poll.attemptLimit 0) s := by
  have hwait : waitFrom client ctx settings previous (kind :: rest) s =
      waitOn client ctx settings kind rest (Poll.run settings (operation ctx kind)
        (look client ctx (stageChecker s.own.job previous kind))) s := by
    rw [waitFrom, run_bind, run_own]
  rw [hwait]
  by_cases hlate :
      (Duration.ofSeconds Poll.clockEnd).nanoseconds ≤ Poll.deadline settings s.clock
  · rw [if_pos hlate]
    exact run_waitOn_of_error (by rw [Poll.run_eq, if_pos hlate])
  · rw [if_neg hlate]
    exact run_waitOn_congr (by rw [Poll.run_eq, if_neg hlate])

theorem matched_waitFrom (hclient : client.Timeless) {after : List Kind}
    {s t : Session κ Progress} (hat : s.own.AtStage before after)
    (hopen : s.own.finished = false) (halike : s.Alike t)
    (hfits : ¬ Overruns settings (waitFrom client ctx settings before.getLast? after s)) :
    Matched client ctx settings (passFrom client ctx before.getLast? after) t
      (waitFrom client ctx settings before.getLast? after s) := by
  induction after generalizing before s t with
  | nil =>
    have hown : (markFinished s).2.own = (markFinished t).2.own := by
      change { s.own with finished := true } = { t.own with finished := true }
      rw [halike.own]
    exact ⟨1, _, .last _ t, hown, halike.cluster, .finished []⟩
  | cons kind rest ih =>
    rw [run_waitFrom_cons] at hfits ⊢
    split at hfits
    · next hlate => exact absurd (.deadline hlate) hfits
    · next hearly =>
      rw [if_neg hearly]
      refine matched_loop hclient ?_ Poll.attemptLimit 0 hat hopen halike rfl
        (Poll.Suffices.start s.clock) hfits
      intro s t hat hopen halike hfits
      have hlast : (before ++ [kind]).getLast? = some kind := List.getLast?_concat
      rw [← hlast] at hfits ⊢
      exact ih hat hopen halike hfits

end Stage

theorem finished_seeds (kinds : List Kind) (s : Session κ Progress) :
    ((kinds.forM fun kind => onJob (Job.seed client ctx kind)) s).2.own.finished =
      s.own.finished := by
  induction kinds generalizing s with
  | nil => rfl
  | cons kind rest ih =>
    have hstill : (onJob (Job.seed client ctx kind) s).2.own.finished = s.own.finished := rfl
    change ((onJob (Job.seed client ctx kind) >>= fun _ =>
      rest.forM fun other => onJob (Job.seed client ctx other)) s).2.own.finished = _
    rw [run_bind]
    rcases hrun : onJob (Job.seed client ctx kind) s with ⟨_ | _, later⟩
    · rw [hrun] at hstill
      exact hstill
    · rw [hrun] at hstill
      exact (ih later).trans hstill

theorem matched_wait (hclient : client.Timeless) (settings : Poll.Settings)
    {s : Session κ Progress} (hopen : s.own.finished = false)
    (hfits : ¬ Overruns settings (wait client ctx settings s)) :
    Matched client ctx settings (pass client ctx) s (wait client ctx settings s) := by
  have hpass : pass client ctx s = (seedAll client ctx >>= fun _ =>
      passFrom client ctx none s.own.chain.stages) s := by
    rw [pass, run_bind, run_own]
    simp only [hopen, Bool.false_eq_true, if_false]
  have hwait : wait client ctx settings s = (seedAll client ctx >>= fun _ =>
      waitFrom client ctx settings none s.own.chain.stages) s := by
    rw [wait, run_bind, run_own]
    simp only [hopen, Bool.false_eq_true, if_false]
  have hlead : Leads (Path client ctx) _ (seedAll client ctx) _ := leads_seedAll s.own.chain
  have hseeded := (hlead s rfl).2
  have hstill : (seedAll client ctx s).2.own.finished = false :=
    (finished_seeds s.own.chain.stages s).trans hopen
  rw [run_bind] at hpass hwait
  rw [hwait] at hfits ⊢
  rcases hrun : seedAll client ctx s with ⟨f | _, later⟩
  · rw [hrun] at hpass
    exact ⟨1, _, .last _ s, hpass ▸ rfl, hpass ▸ rfl, hpass ▸ .failed f _⟩
  · rw [hrun] at hpass hseeded hstill hfits
    obtain ⟨hchain, hall⟩ := hseeded () rfl
    have hat : later.own.AtStage [] s.own.chain.stages :=
      ⟨congrArg Chain.stages hchain, by simp, hall⟩
    have hmatched := matched_waitFrom hclient hat hstill ⟨rfl, rfl⟩ hfits
    exact hmatched.ahead (hpass.trans (ahead_nil _).symm)

/-- A client whose answers are any function of the requests that it was sent before. These are
all of its state. -/
def lister (accepts : Request → Bool)
    (answer : List Request → (request : Request) → Except Error request.Answer)
    (took : List Request → Request → Nat → Nat) : Client (List Request) where
  accepts
  reply request clock asked := ⟨answer asked request, took asked request clock, asked ++ [request]⟩

theorem timeless_lister (accepts : Request → Bool)
    (answer : List Request → (request : Request) → Except Error request.Answer)
    (took : List Request → Request → Nat → Nat) : (lister accepts answer took).Timeless :=
  ⟨fun _ _ _ _ => rfl, fun _ _ _ _ => rfl⟩

/-- Waiting is passing until a pass finishes, fails, or has had its time: a wait makes the
requests of some consecutive passes, in their order, and ends as the last of them does. -/
theorem wait_agrees_with_passes (accepts : Request → Bool)
    (answer : List Request → (request : Request) → Except Error request.Answer)
    (took : List Request → Request → Nat → Nat) (ctx : Context) (settings : Poll.Settings)
    (s : Session (List Request) Progress) (hopen : s.own.finished = false)
    (hfits : ¬ Overruns settings (wait (lister accepts answer took) ctx settings s)) :
    ∃ n passed, 1 ≤ n ∧ Passes (lister accepts answer took) ctx n s passed ∧
      Agrees ctx settings (wait (lister accepts answer took) ctx settings s) passed := by
  obtain ⟨n, passed, hrounds, hagrees⟩ :=
    matched_wait (timeless_lister accepts answer took) settings hopen hfits
  exact ⟨n, passed, hrounds.pos, hrounds, hagrees⟩

def runningVolume : Object :=
  ⟨.volumeBackup, ⟨"nightly-volume-0", some "openshift-adp"⟩, [], none, .inProgress, none⟩

/-- A volume backup is in the second listing, and in no other. -/
def briefly (asked : List Request) (request : Request) : Except Error request.Answer :=
  match request with
  | .list _ _ => .ok (if asked.length = 1 then [runningVolume] else [])
  | _ => .error .invalidRequest

/-- The look that sees the volume backup and the look that misses it are two passes. -/
theorem wait_agrees_with_passes_briefly :
    let client := lister (fun _ => true) briefly fun _ _ _ => 40
    let ctx := Context.new "nightly" "openshift-adp" []
    let s : Session (List Request) Progress := ⟨0, fun _ => 0, [], .fresh .fileSystem⟩
    s.own.finished = false ∧
    ¬ Overruns Poll.uploadDefaults (wait client ctx Poll.uploadDefaults s) ∧
    ∃ n passed, 1 ≤ n ∧ Passes client ctx n s passed ∧
      Agrees ctx Poll.uploadDefaults (wait client ctx Poll.uploadDefaults s) passed := by
  intro client ctx s
  have hopen : s.own.finished = false := rfl
  have hok : (wait client ctx Poll.uploadDefaults s).1.isOk = true := by decide +kernel
  have hfits : ¬ Overruns Poll.uploadDefaults (wait client ctx Poll.uploadDefaults s) := by
    generalize wait client ctx Poll.uploadDefaults s = waited at hok
    intro hcut
    cases hcut <;> cases hok
  exact ⟨hopen, hfits, wait_agrees_with_passes _ briefly _ ctx Poll.uploadDefaults s hopen hfits⟩

end Progress
end BackupWatch.Job
