import BackupWatch.Proofs.Ends
import BackupWatch.Proofs.Retry.Delay
import Mathlib.Algebra.Order.Floor.Div

/-!
Limits of polls and retries. A poll looks at once and again after each wait, and a wait ends at the
deadline or lasts a stride, so the looks are no more than the strides in the time-out, and one. A
retry makes no more attempts than its policy says. Neither ends in a fault if its numbers fit.
-/

namespace BackupWatch

open Time

variable {κ σ α : Type}

/-- An act that ends one way, and in which time does not run backwards. -/
theorem Act.Ends.notBefore {pre : Session κ σ → Prop} {post : α → Session κ σ → Prop}
    {ex : Failure → Session κ σ → Prop} {act : Act κ σ α} (h : Ends pre act post ex)
    (hmoves : Moves Session.NotBefore act) (clock : Nat) :
    Ends (fun s => pre s ∧ s.clock = clock) act (fun a s => post a s ∧ clock ≤ s.clock) ex := by
  rintro s ⟨hs, rfl⟩
  have hend := h s hs
  have hmove := (hmoves s trivial).1
  generalize act s = result at hend hmove
  cases hend with
  | ok hlater => exact .ok ⟨hlater, hmove⟩
  | error hlater => exact .error hlater

namespace Poll

open Act

def mostLooks (settings : Settings) : Nat := settings.timeout.nanoseconds ⌈/⌉ stride settings + 1

/-- A poll that waits between two looks, and whose looks can be counted. -/
structure Settings.Bounded (settings : Settings) : Prop where
  pace : 0 < settings.pace.nanoseconds
  looks : mostLooks settings ≤ attemptLimit

/-- A poll ends without a result in an error, or where the clock cannot hold its deadline. -/
def Stops (settings : Settings) (f : Failure) (s : Session κ σ) : Prop :=
  f.IsError ∨ f = .fault .deadlineOutOfRange ∧
    (Duration.ofSeconds clockEnd).nanoseconds ≤ deadline settings s.clock

theorem stride_pos {settings : Settings} (h : settings.Bounded) : 0 < stride settings := by
  have hlongest : 0 < longestSleep.nanoseconds := by decide
  exact Nat.lt_min.mpr ⟨h.pace, hlongest⟩

/-- The looks can be counted if so many strides are as long as the time-out. -/
theorem bounded_of_le {settings : Settings} (hpace : 0 < settings.pace.nanoseconds)
    (hlooks : settings.timeout.nanoseconds ≤ (attemptLimit - 1) * stride settings) :
    settings.Bounded := by
  have hlongest : 0 < longestSleep.nanoseconds := by decide
  have hstride : 0 < stride settings := Nat.lt_min.mpr ⟨hpace, hlongest⟩
  refine ⟨hpace, Nat.add_le_of_le_sub (by decide) ?_⟩
  exact (ceilDiv_le_iff_le_mul hstride).mpr (by rwa [Nat.mul_comm])

/-- The number of looks that a bounded poll allows is enough to come to the deadline. -/
theorem suffices_mostLooks {settings : Settings} (h : settings.Bounded) (clock : Nat) :
    Suffices settings clock (mostLooks settings) clock := by
  refine ⟨Nat.succ_pos _, Nat.add_le_add_left ?_ _⟩
  rw [mostLooks, Nat.add_sub_cancel, Nat.mul_comm]
  exact le_smul_ceilDiv (stride_pos h)

/-- A wait ends no later than the first whole millisecond at or behind the deadline. -/
theorem wait_le_deadline {settings : Settings} {started now : Nat}
    (h : ¬ deadline settings started ≤ (Duration.ofMillis now).nanoseconds) :
    now + ((settings.pace.min ⟨deadline settings started -
      (Duration.ofMillis now).nanoseconds⟩).min longestSleep).ceilMillis ≤
        started + settings.timeout.ceilMillis := by
  simp only [deadline, Duration.ofMillis] at h ⊢
  change now + (min (min _ _) _ + 999999) / 1000000 ≤
    started + (settings.timeout.nanoseconds + 999999) / 1000000
  dsimp only
  omega

section Spending

variable {settings : Settings} {operation : String} {look : Act κ σ Status}
variable {spent : Nat → Session κ σ → Prop} {started : Nat}

/-- What each look adds one to, and waiting up to the deadline leaves alone, is no more in the end
than the looks that suffice. -/
theorem ends_loop_within (hmono : ∀ {n m} s, n ≤ m → spent n s → spent m s)
    (hpass : ∀ n s millis, spent n s → s.clock + millis ≤ started + settings.timeout.ceilMillis →
      spent n (s.pass millis))
    (hlook : ∀ n clock, Ends (fun s => spent n s ∧ s.clock = clock) look
      (fun _ s => spent (n + 1) s ∧ clock ≤ s.clock) fun f s => spent (n + 1) s ∧ f.IsError)
    {left budget : Nat} (hbudget : budget ≤ left) (attempts n : Nat) :
    Ends (fun s => spent n s ∧ Suffices settings started budget s.clock)
      (loop settings operation look started left attempts) (fun _ s => spent (n + budget) s)
      fun f s => spent (n + budget) s ∧ f.IsError := by
  induction left generalizing attempts n budget with
  | zero =>
    intro s hs
    have hpos := hs.2.some_left
    omega
  | succ left ih =>
    intro s hs
    obtain ⟨hspent, hsuffices⟩ := hs
    have hpos := hsuffices.some_left
    obtain ⟨rest, rfl⟩ : ∃ rest, budget = rest + 1 := ⟨budget - 1, by omega⟩
    have hmore : ∀ t, spent (n + 1) t → spent (n + (rest + 1)) t :=
      fun t => hmono t (by omega)
    unfold loop
    refine ends_bind (fun _ later => spent (n + 1) later ∧ s.clock ≤ later.clock)
      ((hlook n s.clock).imp (fun _ h => h) (fun _ _ h => h) fun _ t h => ⟨hmore t h.1, h.2⟩)
      (fun status => ?_) s ⟨hspent, rfl⟩
    refine ends_bind (fun now later => later.clock = now ∧ spent (n + 1) later ∧
      s.clock ≤ later.clock) (ends_clock fun _ h => ⟨rfl, h⟩) fun now => ?_
    refine ends_ite (fun _ => ends_pure _ fun later h => hmore later h.2.1) fun _ => ?_
    refine ends_ite (fun _ => ends_throw _ fun later h => ⟨hmore later h.2.1, _, rfl⟩)
      fun hopen => ?_
    refine ends_bind (fun _ later => spent (n + 1) later ∧
      Suffices settings started rest later.clock) (ends_sleep _ fun later h => ?_) fun _ => ?_
    · obtain ⟨rfl, hlater, hnow⟩ := h
      exact ⟨hpass (n + 1) later _ hlater (wait_le_deadline hopen), hsuffices.next hnow hopen⟩
    · have hrest := ih (by omega : rest ≤ left) (attempts + 1) (n + 1)
      rw [show n + 1 + rest = n + (rest + 1) by omega] at hrest
      exact hrest

theorem ends_run_within (hsettings : settings.Bounded)
    (hmono : ∀ {n m} s, n ≤ m → spent n s → spent m s)
    (hpass : ∀ n s millis, spent n s → s.clock + millis ≤ started + settings.timeout.ceilMillis →
      spent n (s.pass millis))
    (hlook : ∀ n clock, Ends (fun s => spent n s ∧ s.clock = clock) look
      (fun _ s => spent (n + 1) s ∧ clock ≤ s.clock) fun f s => spent (n + 1) s ∧ f.IsError) :
    Ends (fun s => spent 0 s ∧ s.clock = started) (run settings operation look)
      (fun _ s => spent (mostLooks settings) s)
      fun f s => spent (mostLooks settings) s ∧ Stops settings f s := by
  intro s hs
  obtain ⟨hspent, rfl⟩ := hs
  rw [run_eq]
  split
  · next hlate => exact .error ⟨hmono s (Nat.zero_le _) hspent, Or.inr ⟨rfl, hlate⟩⟩
  · refine (ends_loop_within hmono hpass hlook hsettings.looks 0 0).imp (fun _ h => h)
      (fun _ t h => ?_) (fun _ t h => ⟨?_, Or.inl h.2⟩) s
      ⟨hspent, suffices_mostLooks hsettings s.clock⟩
    · rwa [Nat.zero_add] at h
    · rw [Nat.zero_add] at h
      exact h.1

end Spending
end Poll

namespace Retry

open Act

def Policy.attempts (p : Policy) : Nat := max 1 p.maxAttempts

/-- The delays of a steady policy come out while the dice are in range. -/
theorem ends_delay_of_steady {p : Policy} (hp : p.Steady) {tries : Nat} (hpos : 0 < tries)
    (hless : tries < p.maxAttempts) {pre : Session κ σ → Prop}
    {ex : Failure → Session κ σ → Prop} (hdice : ∀ s, pre s → s.DiceInRange)
    (hroll : ∀ s, pre s → pre s.rolled) :
    Ends pre (p.delay tries) (fun _ => pre) ex := by
  intro s hs
  have hmove : Ending (fun _ => pre) (fun _ => pre) (p.delay tries s) :=
    ends_delay p tries hroll (fun _ _ h => h) s hs
  obtain ⟨d, hd⟩ := hp.run_delay hpos hless (hdice s hs)
  generalize p.delay tries s = result at hmove hd
  cases hmove with
  | ok hlater => exact .ok hlater
  | error _ => cases hd

section Spending

variable {p : Policy} {operation : String} {act : Act κ σ α} {spent : Nat → Session κ σ → Prop}

/-- What each attempt adds one to, and waiting leaves alone, is no more in the end than the
attempts. -/
theorem ends_loop_within (hp : p.Steady) (hmono : ∀ {n m} s, n ≤ m → spent n s → spent m s)
    (hpass : ∀ n s millis, spent n s → spent n (s.pass millis))
    (hdice : ∀ n s, spent n s → s.DiceInRange) (hroll : ∀ n s, spent n s → spent n s.rolled)
    (hact : ∀ n, Ends (spent n) act (fun _ => spent (n + 1))
      fun f s => spent (n + 1) s ∧ f.IsError)
    (left : Nat) {tries : Nat} (hpos : 0 < tries) (hleft : tries + left ≤ p.attempts) (n : Nat) :
    Ends (spent n) (loop p operation act left tries) (fun _ => spent (n + (left + 1)))
      fun f s => spent (n + (left + 1)) s ∧ f.IsError := by
  have hattempt : ∀ n, Ends (spent n) (Act.attempt act) (fun _ => spent (n + 1))
      fun f s => spent (n + 1) s ∧ f.IsError := by
    intro n
    refine (ends_attempt (hact n)).imp (fun _ h => h) (fun result s h => ?_) fun _ _ h => h
    cases result with
    | ok a => exact h
    | error e => exact h.1
  induction left generalizing tries n with
  | zero =>
    unfold loop
    refine ends_bind _ (hattempt n) fun result => ?_
    cases result with
    | ok a => exact ends_pure a fun _ h => h
    | error e =>
      exact ends_ite (fun _ => ends_throw _ fun _ h => ⟨h, _, rfl⟩)
        fun _ => ends_throw _ fun _ h => ⟨h, _, rfl⟩
  | succ left ih =>
    unfold loop
    refine ends_bind _ ((hattempt n).imp (fun _ h => h) (fun _ _ h => h)
      fun f s h => ⟨hmono s (by omega) h.1, h.2⟩) fun result => ?_
    cases result with
    | ok a => exact ends_pure a fun s h => hmono s (by omega) h
    | error e =>
      refine ends_ite (fun _ => ?_) fun _ => ends_throw _ fun s h => ⟨hmono s (by omega) h, _, rfl⟩
      have hless : tries < p.maxAttempts := by
        unfold Policy.attempts at hleft
        omega
      refine ends_bind _ (ends_delay_of_steady hp hpos hless (hdice (n + 1))
        (hroll (n + 1))) fun d => ?_
      refine ends_bind (fun _ => spent (n + 1)) (ends_sleep d fun s h => hpass (n + 1) s _ h)
        fun _ => ?_
      have hrest := ih (Nat.succ_pos tries) (by omega) (n + 1)
      rw [show n + 1 + (left + 1) = n + (left + 1 + 1) by omega] at hrest
      exact hrest

theorem ends_run_within (hp : p.Steady) (hmono : ∀ {n m} s, n ≤ m → spent n s → spent m s)
    (hpass : ∀ n s millis, spent n s → spent n (s.pass millis))
    (hdice : ∀ n s, spent n s → s.DiceInRange) (hroll : ∀ n s, spent n s → spent n s.rolled)
    (hact : ∀ n, Ends (spent n) act (fun _ => spent (n + 1))
      fun f s => spent (n + 1) s ∧ f.IsError) :
    Ends (spent 0) (run p operation act) (fun _ => spent p.attempts)
      fun f s => spent p.attempts s ∧ f.IsError := by
  have hall : p.maxAttempts - 1 + 1 = p.attempts := by
    unfold Policy.attempts
    omega
  have hloop : Ends (spent 0) (run p operation act)
      (fun _ => spent (0 + (p.maxAttempts - 1 + 1)))
      fun f s => spent (0 + (p.maxAttempts - 1 + 1)) s ∧ f.IsError :=
    ends_loop_within hp hmono hpass hdice hroll hact _ Nat.one_pos (by omega) 0
  rwa [Nat.zero_add, hall] at hloop

end Spending
end Retry
end BackupWatch
