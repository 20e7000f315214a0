import BackupWatch.Session
import BackupWatch.Time.Seconds

/-!
Retrying on conflict: an update that lost against a concurrent writer is tried again after a
delay that grows by a factor each time and may be spread at random. Every other outcome ends the
retrying at once.
-/

namespace BackupWatch.Retry

open Time

structure Policy where
  /-- All attempts, the first included; none is taken as one. -/
  maxAttempts : Nat
  initialDelay : Duration
  multiplier : Float
  /-- The fraction of the delay that chance may add or take away. -/
  jitter : Float
  deriving Repr, Inhabited

def Policy.standard : Policy := ⟨5, .ofSeconds 1, 2.0, 0.1⟩

/-- Multiplies `acc` by the powers of `base` that the binary digits of `n` select. -/
def squareAndMultiply : (fuel : Nat) → (acc base : Float) → (n : Nat) → Float
  | 0, acc, _, _ => acc
  | fuel + 1, acc, base, n =>
    let acc := if n % 2 = 1 then acc * base else acc
    if n / 2 = 0 then acc else squareAndMultiply fuel acc (base * base) (n / 2)

/-- A power with a whole exponent of 32 bits; a negative one inverts the result. -/
def power (base : Float) (n : Int) : Float :=
  let result := squareAndMultiply 32 1.0 base n.natAbs
  if n < 0 then 1.0 / result else result

/-- The delay after an attempt, counted from one. The exponent is a signed word of 32 bits. -/
def Policy.baseDelay (p : Policy) (attempt : Nat) : Except Fault Duration :=
  let exponent := Int.bmod ((attempt - 1 : Nat) : Int) 4294967296
  Duration.ofSeconds? (p.initialDelay.toSeconds * power p.multiplier exponent)

/-- The greatest random number below one, with 52 binary digits. -/
def greatestDraw : Float := 1.0 - 1.0 / Float.ofNat 4503599627370496

/-- A random number between `-width` and `width`. The range is measured before it is drawn from,
so its measure must be finite. -/
def draw (width : Float) : Act κ σ Float := do
  if ((width - -width) / greatestDraw).isFinite then return width * (← Act.roll)
  else Act.ofFault (.error .drawOutOfRange)

/-- The base delay, spread at random unless the jitter is zero or less. -/
def Policy.delay (p : Policy) (attempt : Nat) : Act κ σ Duration := do
  let base := (← Act.ofFault (p.baseDelay attempt)).toSeconds
  if p.jitter ≤ 0.0 then
    Act.ofFault (Duration.ofSeconds? base)
  else
    let seconds := base * (1.0 + (← draw p.jitter))
    Act.ofFault (Duration.ofSeconds? (if 0.0 < seconds then seconds else 0.0))

/-- Attempt number `tries`, with `left` more to go. -/
def loop (p : Policy) (operation : String) (act : Act κ σ α) : (left tries : Nat) → Act κ σ α
  | left, tries => do
    match ← Act.attempt act with
    | .ok a => return a
    | .error e =>
      if e.isConflict then
        match left with
        | 0 => Act.fail (.retriesExhausted operation tries e.text)
        | left + 1 =>
          Act.sleep (← p.delay tries)
          loop p operation act left (tries + 1)
      else Act.fail e

/-- Runs an act until it succeeds, fails without a conflict, or has used up its attempts. -/
def run (p : Policy) (operation : String) (act : Act κ σ α) : Act κ σ α :=
  loop p operation act (p.maxAttempts - 1) 1

end BackupWatch.Retry
