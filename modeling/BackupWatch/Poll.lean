import BackupWatch.Session

/-!
Polling: look at once, then once per pace, until the thing is done, a look fails or the deadline
has passed. The last wait is cut short so that the last look falls on the deadline.
-/

namespace BackupWatch.Poll

open Time

structure Settings where
  timeout : Duration
  pace : Duration
  deriving DecidableEq, Repr, Inhabited

def uploadDefaults : Settings := ⟨.ofSeconds 1800, .ofSeconds 10⟩

def propagationDefaults : Settings := ⟨.ofSeconds 120, .ofSeconds 2⟩

/-- What one look saw. -/
structure Status where
  done : Bool
  detail : String
  deriving DecidableEq, Repr, Inhabited

structure Report where
  attempts : Nat
  elapsed : Duration
  last : Status
  deriving DecidableEq, Repr, Inhabited

/-- The most looks that are counted. -/
def attemptLimit : Nat := 4294967295

/-- The second of a session in which its clock ends. The clock counts seconds in a signed word of
64 bits, and had begun at least a minute before the session. -/
def clockEnd : Nat := 9223372036854775808 - 60

/-- The end of the poll, in nanoseconds of the clock. -/
def deadline (settings : Settings) (started : Nat) : Nat :=
  (Duration.ofMillis started).nanoseconds + settings.timeout.nanoseconds

/-- Looks up to `left` more times, after `attempts` looks. -/
def loop (settings : Settings) (operation : String) (look : Act κ σ Status) (started : Nat) :
    (left attempts : Nat) → Act κ σ Report
  | 0, _ => throw (.fault .attemptsOutOfRange)
  | left + 1, attempts => do
    let status ← look
    let now ← Act.clock
    if status.done then
      return ⟨attempts + 1, .ofMillis (now - started), status⟩
    let reached := (Duration.ofMillis now).nanoseconds
    if deadline settings started ≤ reached then
      Act.fail (.timeout operation settings.timeout status.detail)
    else
      Act.sleep (settings.pace.min ⟨deadline settings started - reached⟩)
      loop settings operation look started left (attempts + 1)

/-- Polls for an operation; the clock must be able to hold the deadline. -/
def run (settings : Settings) (operation : String) (look : Act κ σ Status) : Act κ σ Report := do
  let started ← Act.clock
  if (Duration.ofSeconds clockEnd).nanoseconds ≤ deadline settings started then
    throw (.fault .deadlineOutOfRange)
  loop settings operation look started attemptLimit 0

end BackupWatch.Poll
