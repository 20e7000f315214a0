import BackupWatch.Decimal.Binary
import BackupWatch.Fault
import BackupWatch.Time.Duration

/-!
Lengths of time as floating-point seconds, and back: to the nearest nanosecond, ties to even.
-/

namespace BackupWatch.Time

open Decimal

def Duration.toSeconds (d : Duration) : Float :=
  d.seconds.toUInt64.toFloat + d.subsecond.toUInt64.toFloat / 1e9

/-- `num / den`, rounded to the nearest whole number and to the even one of two. -/
def roundHalfEven (num den : Nat) : Nat :=
  let q := num / den
  let twice := 2 * (num % den)
  if twice < den then q
  else if den < twice then q + 1
  else q + q % 2

/-- Fails for negative numbers, for no number and for 2^64 seconds or more. -/
def Duration.ofSeconds? (x : Float) : Except Fault Duration :=
  match Binary.ofFloat x with
  | .nan => .error .secondsOutOfRange
  | .infinite negative => .error (if negative then .negativeSeconds else .secondsOutOfRange)
  | .finite negative mantissa exponent =>
    if mantissa = 0 then .ok ⟨0⟩
    else if negative then .error .negativeSeconds
    else
      let num := (mantissa <<< exponent.toNat) * 1000000000
      let den := 1 <<< (-exponent).toNat
      let rounded := roundHalfEven num den
      if rounded < 18446744073709551616 * 1000000000 then .ok ⟨rounded⟩
      else .error .secondsOutOfRange

end BackupWatch.Time
