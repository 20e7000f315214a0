/-!
Faults: arithmetic that leaves its range and therefore stops the whole program. They are kept
apart from errors, which a caller may handle and go on.
-/

namespace BackupWatch

inductive Fault
  /-- A length of time was computed from a negative number of seconds. -/
  | negativeSeconds
  /-- A length of time was computed from a number of seconds that is not below 2^64. -/
  | secondsOutOfRange
  /-- A deadline lies beyond what the clock can hold. -/
  | deadlineOutOfRange
  /-- A poll used up its attempt counter. -/
  | attemptsOutOfRange
  /-- The minutes of a deadline are too many seconds to be counted. -/
  | productOutOfRange
  /-- A random number was to be drawn from a range that is too wide to be measured. -/
  | drawOutOfRange
  deriving DecidableEq, Repr, Inhabited

def Fault.message : Fault → String
  | negativeSeconds => "cannot convert float seconds to Duration: value is negative"
  | secondsOutOfRange => "cannot convert float seconds to Duration: value is either too big or NaN"
  | deadlineOutOfRange => "overflow when adding duration to instant"
  | attemptsOutOfRange => "attempt to add with overflow"
  | productOutOfRange => "attempt to multiply with overflow"
  | drawOutOfRange => "Uniform::new_inclusive: range overflow"

end BackupWatch
