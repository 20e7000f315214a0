import BackupWatch.Proofs.Limits
import BackupWatch.Proofs.Script
import BackupWatch.Proofs.Time.Seconds

/-!
The attempts of a retry. A script of the attempts and the dice fix when each attempt begins and
ends: each but the first a delay after the one before. The attempts are made up to the first that
is no conflict, or until they are used up.
-/

namespace BackupWatch

open Act Time

variable {κ α : Type}

def Script.conflicts (script : Script α) (i : Nat) : Bool :=
  match (script i).answer with
  | .ok _ => false
  | .error e => e.isConflict

namespace Retry

/-- The time slept for a base delay that is not spread, in milliseconds. -/
def Policy.slept (p : Policy) (attempt : Nat) : Nat :=
  match p.baseDelay attempt with
  | .ok base => (base.min longestSleep).ceilMillis
  | .error _ => 0

/-- A retry, what its attempts are to do, and what chance says. -/
structure Plan (α : Type) where
  policy : Policy
  script : Script α
  dice : Nat → Float
  started : Nat

namespace Plan

variable (p : Plan α)

/-- The delay after an attempt, the attempts counted from zero. -/
def delay (i : Nat) : Except Fault Duration :=
  p.policy.baseDelay (i + 1) >>= p.policy.spread (p.dice i)

/-- The time slept after an attempt, in milliseconds. -/
def pause (i : Nat) : Nat :=
  match p.delay i with
  | .ok d => (d.min longestSleep).ceilMillis
  | .error _ => 0

def began : Nat → Nat
  | 0 => p.started
  | i + 1 => began i + (p.script i).takes + p.pause i

def ended (i : Nat) : Nat := p.began i + (p.script i).takes

def calls (n : Nat) : Script.Record := p.script.calls p.began n

def verdict (operation : String) (i : Nat) : Except Failure α :=
  match (p.script i).answer with
  | .ok a => .ok a
  | .error e =>
    .error (.error (if e.isConflict then .retriesExhausted operation (i + 1) e.text else e))

def before (s : Session κ Script.Record) (i : Nat) : Session κ Script.Record :=
  Script.stage (s.reroll (p.policy.rolled p.dice i)) (p.began i) (p.calls i)

def after (s : Session κ Script.Record) (i : Nat) : Session κ Script.Record :=
  Script.stage (s.reroll (p.policy.rolled p.dice i)) (p.ended i) (p.calls (i + 1))

variable {p}

theorem attempt_act (s : Session κ Script.Record) (i : Nat) :
    Act.attempt p.script.act (p.before s i) = (.ok (p.script i).answer, p.after s i) := by
  rw [Act.attempt, before, calls, Script.run_act]
  cases (p.script i).answer <;> rfl

theorem before_zero {s : Session κ Script.Record} (hstarted : s.clock = p.started)
    (hdice : s.dice = p.dice) (hfresh : s.own = []) : p.before s 0 = s := by
  have hrolled : p.policy.rolled p.dice 0 = p.dice := by
    unfold Policy.rolled
    split <;> rfl
  rw [before, hrolled, ← hdice]
  change Script.stage s p.started [] = s
  rw [← hstarted, Script.stage_self hfresh]

variable (operation : String) (s : Session κ Script.Record) {left i n : Nat}

theorem verdict_of_decisive (h : ¬ p.script.conflicts i) :
    p.verdict operation i = (p.script i).answer.mapError .error := by
  unfold Script.conflicts at h
  rw [verdict]
  cases hanswer : (p.script i).answer with
  | ok a => rfl
  | error e =>
    rw [hanswer] at h
    exact congrArg _ (congrArg _ (if_neg h))

/-- A conflict at the last attempt is told as retries that are used up. -/
theorem verdict_of_conflict (h : p.script.conflicts i) :
    ∃ e, (p.script i).answer = .error e ∧
      p.verdict operation i = .error (.error (.retriesExhausted operation (i + 1) e.text)) := by
  unfold Script.conflicts at h
  rw [verdict]
  cases hanswer : (p.script i).answer with
  | ok a =>
    rw [hanswer] at h
    cases h
  | error e =>
    rw [hanswer] at h
    exact ⟨e, rfl, congrArg _ (congrArg _ (if_pos h))⟩

/-- The last attempt, or one that meets no conflict, ends the loop with its verdict. -/
theorem loop_of_last (h : left = 0 ∨ ¬ p.script.conflicts i) :
    loop p.policy operation p.script.act left (i + 1) (p.before s i) =
      (p.verdict operation i, p.after s i) := by
  unfold loop
  rw [run_bind_of_ok (attempt_act s i), verdict]
  unfold Script.conflicts at h
  cases hanswer : (p.script i).answer with
  | ok a => rfl
  | error e =>
    rw [hanswer] at h
    by_cases hconflict : e.isConflict = true
    · obtain rfl := h.resolve_right (not_not_intro hconflict)
      simp only [hconflict, if_true]
      rfl
    · simp only [hconflict, Bool.false_eq_true, if_false]
      rfl

/-- After a conflict the loop sleeps for the delay drawn, and one attempt fewer is left. -/
theorem loop_of_conflict {d : Duration} (h : p.script.conflicts i) (hdelay : p.delay i = .ok d) :
    loop p.policy operation p.script.act (left + 1) (i + 1) (p.before s i) =
      loop p.policy operation p.script.act left (i + 1 + 1) (p.before s (i + 1)) := by
  conv_lhs => unfold loop
  rw [run_bind_of_ok (attempt_act s i)]
  unfold Script.conflicts at h
  cases hanswer : (p.script i).answer with
  | ok a =>
    rw [hanswer] at h
    cases h
  | error e =>
    rw [hanswer] at h
    have hpause : p.pause i = (d.min longestSleep).ceilMillis := by rw [pause, hdelay]
    have hrun : p.policy.delay (i + 1) (p.after s i) =
        (.ok d, (p.after s i).reroll (p.policy.rolled p.dice (i + 1))) := by
      rw [delay, bind_eq_ok_iff] at hdelay
      obtain ⟨base, hbase, hspread⟩ := hdelay
      have hdice : (p.after s i).dice = p.policy.rolled p.dice i := rfl
      rw [← spread_rolled, ← hdice] at hspread
      rw [run_delay hbase hspread, hdice, rolled_rolled]
    simp only [show e.isConflict = true from h, if_true]
    rw [run_bind_of_ok hrun, run_bind_of_ok (run_sleep _ _), ← hpause]
    rfl

/-- The loop makes the attempts up to the first that is no conflict, or to the last there is. -/
theorem loop_eq (hfirst : ∀ j < n, p.script.conflicts j) (hin : i ≤ n) (hn : n ≤ i + left)
    (hlast : n = i + left ∨ ¬ p.script.conflicts n) (hdelays : ∀ j < n, ∃ d, p.delay j = .ok d) :
    loop p.policy operation p.script.act left (i + 1) (p.before s i) =
      (p.verdict operation n, p.after s n) := by
  -- on the attempts left: every attempt before the last is a conflict, and its delay is known
  induction left generalizing i with
  | zero =>
    obtain rfl : i = n := Nat.le_antisymm hin hn
    exact loop_of_last operation s (Or.inl rfl)
  | succ left ih =>
    obtain rfl | hless := Nat.eq_or_lt_of_le hin
    · exact loop_of_last operation s (Or.inr (hlast.resolve_left (by omega)))
    · obtain ⟨d, hdelay⟩ := hdelays i hless
      rw [loop_of_conflict operation s (hfirst i hless) hdelay]
      exact ih hless (by omega) (hlast.imp_left (by omega))

/-- There is a first attempt that is no conflict, or the attempts are used up. -/
theorem exists_last (p : Plan α) : ∃ n < p.policy.attempts, (∀ i < n, p.script.conflicts i) ∧
    (n + 1 = p.policy.attempts ∨ ¬ p.script.conflicts n) := by
  have hsome : ∃ n, n + 1 = p.policy.attempts ∨ ¬ p.script.conflicts n :=
    ⟨p.policy.attempts - 1, Or.inl (by unfold Policy.attempts; omega)⟩
  have hmin : Nat.find hsome ≤ p.policy.attempts - 1 :=
    Nat.find_min' hsome (Or.inl (by unfold Policy.attempts; omega))
  refine ⟨Nat.find hsome, by unfold Policy.attempts at hmin ⊢; omega, fun i hi => ?_,
    Nat.find_spec hsome⟩
  exact Decidable.not_not.mp fun hno => Nat.find_min hsome hi (Or.inr hno)

/-! ### The time slept -/

/-- Without chance a delay is the base delay. -/
theorem delay_eq_baseDelay (hjitter : p.policy.jitter ≤ 0.0) (i : Nat) :
    p.delay i = p.policy.baseDelay (i + 1) := by
  rw [delay]
  cases hbase : p.policy.baseDelay (i + 1) with
  | error => rfl
  | ok base =>
    change p.policy.spread (p.dice i) base = .ok base
    rw [Policy.spread, if_pos hjitter]
    exact Duration.ofSeconds?_toSeconds hbase

/-- An attempt ends after all the calls so far and all the delays between them. -/
theorem ended_eq (n : Nat) : p.ended n = p.started +
    ∑ i ∈ Finset.range (n + 1), (p.script i).takes + ∑ i ∈ Finset.range n, p.pause i := by
  induction n with
  | zero => simp [ended, began]
  | succ n ih =>
    rw [ended, began, Finset.sum_range_succ (fun i => (p.script i).takes) (n + 1),
      Finset.sum_range_succ p.pause n]
    change p.ended n + p.pause n + _ = _
    rw [ih]
    omega

theorem pause_eq_slept (hjitter : p.policy.jitter ≤ 0.0) (i : Nat) :
    p.pause i = p.policy.slept (i + 1) := by
  rw [pause, delay_eq_baseDelay hjitter]
  rfl

end Plan

/-- A retry ends with the first attempt that is no conflict, or with the last there is, and sleeps
between the attempts only. -/
theorem run_first_decisive (p : Plan α) (operation : String) {s : Session κ Script.Record}
    (hstarted : s.clock = p.started) (hdice : s.dice = p.dice) (hfresh : s.own = [])
    (hdelays : ∀ i, i + 1 < p.policy.attempts → (∀ j ≤ i, p.script.conflicts j) →
      ∃ base, p.policy.baseDelay (i + 1) = .ok base ∧
        (¬ p.policy.jitter ≤ 0.0 → ∃ d, p.policy.spread (p.dice i) base = .ok d)) :
    (∃ n < p.policy.attempts, (∀ i < n, p.script.conflicts i) ∧
      (run p.policy operation p.script.act s).2.own = p.calls (n + 1) ∧
      (run p.policy operation p.script.act s).2.clock = p.ended n ∧
      (¬ p.script.conflicts n →
        (run p.policy operation p.script.act s).1 = (p.script n).answer.mapError .error) ∧
      (p.script.conflicts n → n + 1 = p.policy.attempts ∧
        ∃ e, (p.script n).answer = .error e ∧ (run p.policy operation p.script.act s).1 =
          .error (.error (.retriesExhausted operation p.policy.attempts e.text))) ∧
      (p.policy.jitter ≤ 0.0 → (run p.policy operation p.script.act s).2.clock =
        s.clock + ∑ i ∈ Finset.range (n + 1), (p.script i).takes +
          ∑ i ∈ Finset.range n, p.policy.slept (i + 1))) ∧
    ∀ operation attempts text, (Error.retriesExhausted operation attempts text).isConflict = false
    := by
  refine ⟨?_, fun _ _ _ => rfl⟩
  obtain ⟨n, hless, hfirst, hlast⟩ := p.exists_last
  have hall : ∀ i < n, ∃ d, p.delay i = .ok d := by
    intro i hi
    obtain ⟨base, hbase, hspread⟩ := hdelays i (by omega) fun j hj => hfirst j (by omega)
    by_cases hjitter : p.policy.jitter ≤ 0.0
    · exact ⟨base, by rw [Plan.delay_eq_baseDelay hjitter, hbase]⟩
    · obtain ⟨d, hd⟩ := hspread hjitter
      exact ⟨d, bind_eq_ok_iff.mpr ⟨base, hbase, hd⟩⟩
  have hattempts : p.policy.maxAttempts - 1 + 1 = p.policy.attempts := by
    unfold Policy.attempts
    omega
  have hrun : run p.policy operation p.script.act s = (p.verdict operation n, p.after s n) := by
    have hmost : n ≤ 0 + (p.policy.maxAttempts - 1) := by omega
    have hloop := Plan.loop_eq operation s hfirst (Nat.zero_le n) hmost
      (hlast.imp_left (by omega)) hall
    rwa [Plan.before_zero hstarted hdice hfresh] at hloop
  refine ⟨n, hless, hfirst, ?_⟩
  rw [hrun]
  refine ⟨rfl, rfl, fun hdecisive => ?_, fun hconflict => ?_, fun hjitter => ?_⟩
  · exact Plan.verdict_of_decisive operation hdecisive
  · have hused := hlast.resolve_right (not_not_intro hconflict)
    obtain ⟨e, hanswer, hverdict⟩ := Plan.verdict_of_conflict operation hconflict
    exact ⟨hused, e, hanswer, hused ▸ hverdict⟩
  · rw [hstarted, ← Finset.sum_congr rfl fun i _ => Plan.pause_eq_slept hjitter i]
    exact Plan.ended_eq n

def contended (conflicts : Nat) : Script Nat := fun i =>
  ⟨5, if i < conflicts then .error (.api ⟨409, "Conflict", "busy"⟩) else .ok 7⟩

def doublingPlan : Plan Nat := ⟨⟨3, .ofSeconds 1, 2.0, 0.0⟩, contended 2, fun _ => 0.0, 0⟩

/-- Two conflicts and two delays, of one second and of two, come before the result. -/
theorem run_first_decisive_third :
    (run doublingPlan.policy "test" doublingPlan.script.act Script.start).1 = .ok 7 ∧
    (run doublingPlan.policy "test" doublingPlan.script.act Script.start).2.own =
      [⟨0, 5⟩, ⟨1005, 1010⟩, ⟨3010, 3015⟩] ∧
    (run doublingPlan.policy "test" doublingPlan.script.act Script.start).2.clock = 3015 := by
  have hdelays : ∀ i, i + 1 < doublingPlan.policy.attempts →
      (∀ j ≤ i, doublingPlan.script.conflicts j) →
      ∃ base, doublingPlan.policy.baseDelay (i + 1) = .ok base ∧
        (¬ doublingPlan.policy.jitter ≤ 0.0 →
          ∃ d, doublingPlan.policy.spread (doublingPlan.dice i) base = .ok d) := by
    intro i hi _
    have hjitter : doublingPlan.policy.jitter ≤ 0.0 := by decide +kernel
    obtain rfl | rfl : i = 0 ∨ i = 1 := by
      have : i + 1 < 3 := hi
      omega
    · exact ⟨.ofSeconds 1, ok_of_toOption (by decide +kernel), fun h => absurd hjitter h⟩
    · exact ⟨.ofSeconds 2, ok_of_toOption (by decide +kernel), fun h => absurd hjitter h⟩
  obtain ⟨⟨n, hless, hfirst, hcalls, -, hdecisive, hexhausted, hslept⟩, -⟩ :=
    run_first_decisive doublingPlan "test" (s := Script.start) rfl rfl rfl hdelays
  obtain rfl : n = 2 := by
    by_contra hne
    have hbefore : n < 2 := by
      have : n < 3 := hless
      omega
    have hconflict : doublingPlan.script.conflicts n := by
      simp only [Script.conflicts, doublingPlan, contended, hbefore, if_true]
      rfl
    have : n + 1 = 3 := (hexhausted hconflict).1
    omega
  refine ⟨hdecisive (by decide), hcalls.trans (by decide +kernel), ?_⟩
  rw [hslept (by decide +kernel)]
  decide +kernel

/-- Draws no number: the range is too wide to be measured. -/
def widePolicy : Policy := ⟨3, .ofMillis 100, 2.0, 1e308⟩

/-- Waits thirty years and half a second. -/
def patientPolicy : Policy := ⟨3, .ofMillis 946080000500, 1.0, 0.0⟩

/-- A base delay that can be computed is not enough: one that is spread too wide ends the retry
before an attempt that would succeed, and of one above thirty years the rest is not slept. -/
theorem delays_beyond_base :
    (widePolicy.baseDelay 1 = .ok (.ofMillis 100) ∧ (contended 1).conflicts 0 ∧
      ¬ (contended 1).conflicts 1 ∧
      (run widePolicy "test" (contended 1).act Script.start).1 =
        .error (.fault .drawOutOfRange)) ∧
    (patientPolicy.baseDelay 1 = .ok (.ofMillis 946080000500) ∧
      (run patientPolicy "test" (contended 1).act Script.start).2.own =
        [⟨0, 5⟩, ⟨946080000005, 946080000010⟩] ∧
      (run patientPolicy "test" (contended 1).act Script.start).2.clock = 946080000010) := by
  have hfault : (match (run widePolicy "test" (contended 1).act Script.start).1 with
      | .ok _ => none
      | .error f => some f) = some (.fault .drawOutOfRange) := by
    decide +kernel
  refine ⟨⟨ok_of_toOption (by decide +kernel), by decide, by decide, ?_⟩,
    ok_of_toOption (by decide +kernel), by decide +kernel, by decide +kernel⟩
  cases h : (run widePolicy "test" (contended 1).act Script.start).1 with
  | ok a =>
    rw [h] at hfault
    cases hfault
  | error f =>
    rw [h] at hfault
    exact congrArg _ (Option.some.inj hfault)

end Retry
end BackupWatch
