import BackupWatch.Proofs.Limits
import BackupWatch.Proofs.Script

/-!
The schedule of a poll. Settings in whole milliseconds and a script of the looks fix when each look
begins and ends: the first at once, each later one a wait after the one before, where a wait is cut
short at the deadline. The poll makes the looks up to the first that decides it, and no other.
-/

namespace BackupWatch.Poll

open Act Time

variable {κ : Type}

/-- The longest single wait, in milliseconds: thirty years of 365 days. -/
def thirtyYears : Nat := 946080000000

/-- A poll in whole milliseconds, and what its looks are to do. -/
structure Plan where
  script : Script Status
  timeout : Nat
  pace : Nat
  started : Nat

namespace Plan

variable (p : Plan)

def settings : Settings := ⟨.ofMillis p.timeout, .ofMillis p.pace⟩

def deadline : Nat := p.started + p.timeout

/-- The wait after a look that ended at some time. -/
def wait (ended : Nat) : Nat := min (min p.pace (p.deadline - ended)) thirtyYears

def began : Nat → Nat
  | 0 => p.started
  | i + 1 => began i + (p.script i).takes + p.wait (began i + (p.script i).takes)

def ended (i : Nat) : Nat := p.began i + (p.script i).takes

def calls (n : Nat) : Script.Record := p.script.calls p.began n

/-- Whether a look ends the poll. -/
def decisive (i : Nat) : Bool :=
  match (p.script i).answer with
  | .error _ => true
  | .ok status => status.done || decide (p.deadline ≤ p.ended i)

def verdict (operation : String) (i : Nat) : Except Failure Report :=
  match (p.script i).answer with
  | .error e => .error (.error e)
  | .ok status =>
    if status.done then .ok ⟨i + 1, .ofMillis (p.ended i - p.started), status⟩
    else .error (.error (.timeout operation (.ofMillis p.timeout) status.detail))

variable {p}

theorem decisive_of_error {i : Nat} {e : Error} (h : (p.script i).answer = .error e) :
    p.decisive i = true := by
  rw [decisive, h]

/-- A look that gives a status decides if it is done or if the deadline has come. -/
theorem decisive_iff_of_ok {i : Nat} {status : Status} (h : (p.script i).answer = .ok status) :
    p.decisive i = true ↔ status.done = true ∨ p.deadline ≤ p.ended i := by
  rw [decisive, h]
  simp

/-- A look that decides nothing has ended before the deadline. -/
theorem ended_lt_of_not_decisive {i : Nat} (h : ¬ p.decisive i) : p.ended i < p.deadline := by
  cases hanswer : (p.script i).answer with
  | error e => exact absurd (decisive_of_error hanswer) h
  | ok status =>
    rw [decisive_iff_of_ok hanswer] at h
    exact Nat.lt_of_not_le fun hlate => h (Or.inr hlate)

/-! ### The run -/

theorem deadline_settings : Poll.deadline p.settings p.started =
    (Duration.ofMillis p.deadline).nanoseconds := by
  simp only [Poll.deadline, settings, Duration.ofMillis, deadline, Nat.add_mul]

theorem ceilMillis_wait (ended : Nat) :
    ((p.settings.pace.min ⟨Poll.deadline p.settings p.started -
      (Duration.ofMillis ended).nanoseconds⟩).min longestSleep).ceilMillis = p.wait ended := by
  rw [deadline_settings]
  change (min (min (p.pace * 1000000) (p.deadline * 1000000 - ended * 1000000))
    946080000000000000 + 999999) / 1000000 = min (min p.pace (p.deadline - ended)) 946080000000
  omega

def before (p : Plan) (s : Session κ Script.Record) (k : Nat) : Session κ Script.Record :=
  Script.stage s (p.began k) (p.calls k)

def after (p : Plan) (s : Session κ Script.Record) (k : Nat) : Session κ Script.Record :=
  Script.stage s (p.ended k) (p.calls (k + 1))

theorem run_look (s : Session κ Script.Record) (k : Nat) :
    p.script.act (p.before s k) = ((p.script k).answer.mapError .error, p.after s k) :=
  p.script.run_act p.began s k

variable (operation : String) (s : Session κ Script.Record) (left : Nat) {k n : Nat}

/-- Whether the deadline is seen to have passed after a look. -/
theorem deadline_le_iff (k : Nat) : Poll.deadline p.settings p.started ≤
    (Duration.ofMillis (p.after s k).clock).nanoseconds ↔ p.deadline ≤ p.ended k := by
  rw [deadline_settings]
  exact Nat.mul_le_mul_right_iff (by decide)

/-- At a decisive look the loop ends with that look's verdict. -/
theorem loop_of_decisive (h : p.decisive k) :
    loop p.settings operation p.script.act p.started (left + 1) k (p.before s k) =
      (p.verdict operation k, p.after s k) := by
  have hlook := run_look (p := p) s k
  rw [verdict, loop]
  cases hanswer : (p.script k).answer with
  | error e =>
    rw [hanswer] at hlook
    exact run_bind_of_error hlook
  | ok status =>
    rw [hanswer] at hlook
    rw [run_bind_of_ok hlook, run_bind_of_ok (run_clock _)]
    by_cases hdone : status.done = true
    · simp only [hdone, if_true]
      rfl
    · have hover := ((decisive_iff_of_ok hanswer).mp h).resolve_left hdone
      simp only [hdone, (deadline_le_iff s k).mpr hover, if_true]
      rfl

/-- After any other look the loop sleeps and looks again, with one look fewer left. -/
theorem loop_of_not_decisive (h : ¬ p.decisive k) :
    loop p.settings operation p.script.act p.started (left + 1) k (p.before s k) =
      loop p.settings operation p.script.act p.started left (k + 1) (p.before s (k + 1)) := by
  have hlook := run_look (p := p) s k
  rw [loop]
  cases hanswer : (p.script k).answer with
  | error e => exact absurd (decisive_of_error hanswer) h
  | ok status =>
    rw [hanswer] at hlook
    rw [decisive_iff_of_ok hanswer, not_or, ← deadline_le_iff s] at h
    rw [run_bind_of_ok hlook, run_bind_of_ok (run_clock _)]
    simp only [h.1, h.2, Bool.false_eq_true, if_false]
    rw [run_bind_of_ok (run_sleep _ _)]
    change loop _ _ _ _ left (k + 1) ((p.after s k).pass
      ((p.settings.pace.min ⟨Poll.deadline p.settings p.started -
        (Duration.ofMillis (p.ended k)).nanoseconds⟩).min longestSleep).ceilMillis) = _
    rw [ceilMillis_wait]
    rfl

/-- The loop makes the looks up to the first decisive one. -/
theorem loop_eq (hn : p.decisive n) (hfirst : ∀ i < n, ¬ p.decisive i) (hk : k ≤ n)
    (hleft : n - k < left) :
    loop p.settings operation p.script.act p.started left k (p.before s k) =
      (p.verdict operation n, p.after s n) := by
  induction left generalizing k with
  | zero => omega
  | succ left ih =>
    obtain rfl | hless := Nat.eq_or_lt_of_le hk
    · exact loop_of_decisive operation s left hn
    · rw [loop_of_not_decisive operation s left (hfirst k hless)]
      exact ih hless (by omega)

/-! ### The times -/

/-- No look begins after the deadline, since a sleep is cut to end there. -/
theorem began_le_deadline (hfirst : ∀ i < n, ¬ p.decisive i) : p.began n ≤ p.deadline := by
  cases n with
  | zero => exact Nat.le_add_right _ _
  | succ n =>
    have hended := ended_lt_of_not_decisive (hfirst n (Nat.lt_succ_self n))
    change p.ended n + p.wait (p.ended n) ≤ _
    unfold wait
    omega

def stride (p : Plan) : Nat := min p.pace thirtyYears

theorem wait_eq (ended : Nat) : p.wait ended = min p.stride (p.deadline - ended) := by
  unfold wait stride
  omega

/-- The looks advance by strides at least, up to the deadline. -/
theorem le_began (hfirst : ∀ i < n, ¬ p.decisive i) :
    p.started + min p.timeout (n * p.stride) ≤ p.began n := by
  induction n with
  | zero => simp [began]
  | succ n ih =>
    have hbegan := ih fun i hi => hfirst i (Nat.lt_succ_of_lt hi)
    have hended := ended_lt_of_not_decisive (hfirst n (Nat.lt_succ_self n))
    change _ ≤ p.ended n + p.wait (p.ended n)
    rw [wait_eq, Nat.succ_mul]
    unfold ended deadline at *
    omega

theorem began_le (hidle : ∀ i, (p.script i).takes = 0) (n : Nat) :
    p.began n ≤ p.started + n * p.stride := by
  induction n with
  | zero => simp [began]
  | succ n ih =>
    rw [began, hidle, wait_eq, Nat.succ_mul]
    omega

/-- Some look decides, within as many strides as the timeout has room for. -/
theorem exists_first_decisive (hstride : 0 < p.stride) :
    ∃ n, p.decisive n ∧ (∀ i < n, ¬ p.decisive i) ∧ n ≤ p.timeout ⌈/⌉ p.stride := by
  have hsome : ∃ n, p.decisive n ∧ n ≤ p.timeout ⌈/⌉ p.stride := by
    -- otherwise the looks have advanced by all the strides, and the last one ends at the deadline
    by_contra hnone
    have hall : ∀ i ≤ p.timeout ⌈/⌉ p.stride, ¬ p.decisive i :=
      fun i hi hdecisive => hnone ⟨i, hdecisive, hi⟩
    have hbegan := le_began fun i hi => hall i (Nat.le_of_lt hi)
    have hended := ended_lt_of_not_decisive (hall _ le_rfl)
    have hstrides : p.timeout ≤ p.timeout ⌈/⌉ p.stride * p.stride := by
      rw [Nat.mul_comm]
      exact le_smul_ceilDiv hstride
    unfold ended deadline at hended
    omega
  obtain ⟨m, hm, hle⟩ := hsome
  have hexists : ∃ n, p.decisive n := ⟨m, hm⟩
  exact ⟨Nat.find hexists, Nat.find_spec hexists, fun i hi => Nat.find_min hexists hi,
    (Nat.find_min' hexists hm).trans hle⟩

/-- Looks that take no time and are never done are as many as the strides in the time-out, and
one. -/
theorem timeout_le_of_idle (hidle : ∀ i, (p.script i).takes = 0) (hstride : 0 < p.stride)
    (hover : p.deadline ≤ p.ended n) : p.timeout ⌈/⌉ p.stride ≤ n := by
  have hbegan := began_le hidle n
  rw [ceilDiv_le_iff_le_mul hstride]
  unfold ended deadline at hover
  rw [hidle] at hover
  rw [Nat.mul_comm]
  omega

end Plan

/-- A poll makes the looks of its plan up to the first decisive one. No look begins behind the
deadline, and only one that ends there or behind it is reported as a time-out. -/
theorem run_follows_plan (p : Plan) (operation : String) {s : Session κ Script.Record}
    (hstarted : s.clock = p.started) (hfresh : s.own = []) (hpace : 0 < p.pace)
    (hdeadline : Poll.deadline p.settings p.started < (Duration.ofSeconds clockEnd).nanoseconds)
    (hlooks : p.timeout ⌈/⌉ p.stride + 1 ≤ attemptLimit) :
    ∃ n, p.decisive n ∧ (∀ i < n, ¬ p.decisive i) ∧
      run p.settings operation p.script.act s =
        (p.verdict operation n, { s with clock := p.ended n, own := p.calls (n + 1) }) ∧
      (∀ i ≤ n, p.began i ≤ p.deadline) ∧
      (∀ status, (p.script n).answer = .ok status → status.done = false →
        p.deadline ≤ p.ended n ∧ p.ended n ≤ p.deadline + (p.script n).takes) ∧
      ((∀ i, (p.script i).takes = 0 ∧
        ∃ status, (p.script i).answer = .ok status ∧ status.done = false) →
          n + 1 = p.timeout ⌈/⌉ p.stride + 1) := by
  have hstride : 0 < p.stride := Nat.lt_min.mpr ⟨hpace, by decide⟩
  obtain ⟨n, hn, hfirst, hle⟩ := Plan.exists_first_decisive hstride
  have hbegan : ∀ i ≤ n, p.began i ≤ p.deadline := fun i hi =>
    Plan.began_le_deadline fun j hj => hfirst j (Nat.lt_of_lt_of_le hj hi)
  have hover {status : Status} (hanswer : (p.script n).answer = .ok status)
      (hpending : status.done = false) : p.deadline ≤ p.ended n :=
    ((Plan.decisive_iff_of_ok hanswer).mp hn).resolve_left (by rw [hpending]; decide)
  refine ⟨n, hn, hfirst, ?_, hbegan, fun status hanswer hpending => ?_, fun hidle => ?_⟩
  · have hbefore : p.before s 0 = s := by
      rw [← Script.stage_self hfresh, hstarted]
      rfl
    rw [run_eq, hstarted, if_neg (Nat.not_le_of_lt hdeadline)]
    rw [← hbefore, Plan.loop_eq operation s _ hn hfirst (Nat.zero_le n) (by omega), hbefore]
    rfl
  · exact ⟨hover hanswer hpending, Nat.add_le_add_right (hbegan n le_rfl) _⟩
  · obtain ⟨status, hanswer, hpending⟩ := (hidle n).2
    have hmany := Plan.timeout_le_of_idle (fun i => (hidle i).1) hstride (hover hanswer hpending)
    omega

def idlePlan (timeout pace : Nat) : Plan := ⟨fun _ => ⟨0, .ok ⟨false, "waiting"⟩⟩, timeout, pace, 0⟩

/-- The last wait is cut short, and the last look falls on the deadline. -/
theorem run_follows_plan_short :
    run (idlePlan 25 10).settings "test" (idlePlan 25 10).script.act Script.start =
      (.error (.error (.timeout "test" (.ofMillis 25) "waiting")),
        { Script.start with clock := 25, own := [⟨0, 0⟩, ⟨10, 10⟩, ⟨20, 20⟩, ⟨25, 25⟩] }) := by
  obtain ⟨n, -, -, hrun, -, -, hmany⟩ :=
    run_follows_plan (idlePlan 25 10) "test" (s := Script.start) rfl rfl (by decide) (by decide)
      (by decide)
  have hn : n + 1 = 4 := hmany fun i => ⟨rfl, _, rfl, rfl⟩
  obtain rfl : n = 3 := by omega
  rw [hrun]
  rfl

def sluggishPlan : Plan := idlePlan 946080000001 946080000001

/-- With a pace above thirty years the second look comes before the pace has passed, and there is
one look more than the paces in the time-out would make. -/
theorem looks_before_pace :
    0 < sluggishPlan.pace ∧
    Poll.deadline sluggishPlan.settings 0 < (Duration.ofSeconds clockEnd).nanoseconds ∧
    sluggishPlan.timeout ⌈/⌉ sluggishPlan.pace + 1 = 2 ∧
    (run sluggishPlan.settings "test" sluggishPlan.script.act Script.start).2.own =
      [⟨0, 0⟩, ⟨946080000000, 946080000000⟩, ⟨946080000001, 946080000001⟩] := by
  refine ⟨by decide, by decide, ?_, by decide +kernel⟩
  rw [Nat.ceilDiv_eq_add_pred_div]
  decide

end BackupWatch.Poll
