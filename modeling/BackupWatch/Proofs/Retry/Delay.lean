import BackupWatch.Proofs.Act

/-!
Delays of a retry. The delay after an attempt is its base delay, spread by the next number that
chance says. Nothing else of the session matters to it, and it takes no more than that number.
-/

namespace BackupWatch.Retry

open Act Time

variable {κ σ : Type}

/-- What becomes of a base delay if chance says `die`. -/
def Policy.spread (p : Policy) (die : Float) (base : Duration) : Except Fault Duration :=
  if p.jitter ≤ 0.0 then Duration.ofSeconds? base.toSeconds
  else if ((p.jitter - -p.jitter) / greatestDraw).isFinite then
    let seconds := base.toSeconds * (1.0 + p.jitter * die)
    Duration.ofSeconds? (if 0.0 < seconds then seconds else 0.0)
  else .error .drawOutOfRange

def Policy.rolled (p : Policy) (dice : Nat → Float) (delays : Nat) : Nat → Float :=
  if p.jitter ≤ 0.0 then dice else fun n => dice (n + delays)

/-- One delay after some others takes the next of the dice. -/
theorem rolled_rolled (p : Policy) (dice : Nat → Float) (n : Nat) :
    p.rolled (p.rolled dice n) 1 = p.rolled dice (n + 1) := by
  unfold Policy.rolled
  split
  · rfl
  · funext k
    exact congrArg dice (by omega)

/-- The spread of a later delay is that of the dice which are left by then. -/
theorem spread_rolled (p : Policy) (dice : Nat → Float) (n : Nat) (base : Duration) :
    p.spread (p.rolled dice n 0) base = p.spread (dice n) base := by
  unfold Policy.spread Policy.rolled
  split
  · rfl
  · dsimp only
    rw [Nat.zero_add]

theorem run_delay {p : Policy} {attempt : Nat} {base d : Duration} {s : Session κ σ}
    (hbase : p.baseDelay attempt = .ok base) (hspread : p.spread (s.dice 0) base = .ok d) :
    p.delay attempt s = (.ok d, s.reroll (p.rolled s.dice 1)) := by
  have hgiven : ofFault (p.baseDelay attempt) s = (.ok base, s) := by rw [hbase]; rfl
  rw [Policy.delay, run_bind_of_ok hgiven, Policy.rolled]
  rw [Policy.spread] at hspread
  by_cases hjitter : p.jitter ≤ 0.0
  · simp only [hjitter, if_true] at hspread ⊢
    rw [hspread]
    rfl
  · by_cases hrange : ((p.jitter - -p.jitter) / greatestDraw).isFinite = true
    · simp only [hjitter, hrange, if_true, if_false] at hspread ⊢
      have hdraw : (draw p.jitter : Act κ σ Float) s =
          (.ok (p.jitter * s.dice 0), s.rolled) := by
        simp only [draw, hrange, if_true]
        rw [run_bind_of_ok (run_roll s)]
        rfl
      rw [run_bind_of_ok hdraw, hspread]
      rfl
    · simp only [hjitter, hrange, Bool.false_eq_true, if_false] at hspread
      cases hspread

/-- A policy whose delays can all be computed, whatever chance says. -/
def Policy.Steady (p : Policy) : Prop :=
  ∀ tries, 0 < tries → tries < p.maxAttempts → ∀ die : Float, -1.0 ≤ die → die ≤ 1.0 →
    ∃ d, p.baseDelay tries >>= p.spread die = .ok d

/-- A steady policy has a delay for each attempt but the last, on any dice in range. -/
theorem Policy.Steady.run_delay {p : Policy} (hp : p.Steady) {tries : Nat} (hpos : 0 < tries)
    (hless : tries < p.maxAttempts) {s : Session κ σ} (hdice : s.DiceInRange) :
    ∃ d, (p.delay tries s).1 = .ok d := by
  obtain ⟨d, hd⟩ := hp tries hpos hless (s.dice 0) (hdice 0).1 (hdice 0).2
  obtain ⟨base, hbase, hspread⟩ := bind_eq_ok_iff.mp hd
  exact ⟨d, congrArg Prod.fst (Retry.run_delay hbase hspread)⟩

end BackupWatch.Retry
