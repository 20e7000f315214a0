/-!
Lengths of time in whole nanoseconds, and the text that reports them: the largest unit with a
nonzero whole part, then the fraction without trailing zeros.
-/

namespace BackupWatch.Time

structure Duration where
  nanoseconds : Nat
  deriving DecidableEq, Repr, Inhabited

namespace Duration

def ofSeconds (seconds : Nat) : Duration := ⟨seconds * 1000000000⟩

def ofMillis (millis : Nat) : Duration := ⟨millis * 1000000⟩

/-- The whole seconds. -/
def seconds (d : Duration) : Nat := d.nanoseconds / 1000000000

/-- What is left beside the whole seconds, in nanoseconds. -/
def subsecond (d : Duration) : Nat := d.nanoseconds % 1000000000

/-- The fewest whole milliseconds that are not shorter. -/
def ceilMillis (d : Duration) : Nat := (d.nanoseconds + 999999) / 1000000

def min (a b : Duration) : Duration := ⟨Nat.min a.nanoseconds b.nanoseconds⟩

/-- The decimal digits of `n`, with zeros in front up to `width`. -/
def padded (width n : Nat) : String :=
  let digits := toString n
  String.ofList (List.replicate (width - digits.length) '0') ++ digits

/-- A fraction of `width` places, its trailing zeros dropped; empty for zero. -/
def fraction (width n : Nat) : String :=
  if n = 0 then ""
  else
    let places := (padded width n).toList.reverse.dropWhile (· == '0')
    "." ++ String.ofList places.reverse

/-- The text in a unit of `10 ^ places` nanoseconds. -/
def inUnit (places : Nat) (unit : String) (d : Duration) : String :=
  let size := Nat.pow 10 places
  toString (d.nanoseconds / size) ++ fraction places (d.nanoseconds % size) ++ unit

def text (d : Duration) : String :=
  if 1000000000 ≤ d.nanoseconds then d.inUnit 9 "s"
  else if 1000000 ≤ d.nanoseconds then d.inUnit 6 "ms"
  else if 1000 ≤ d.nanoseconds then d.inUnit 3 "µs"
  else d.inUnit 0 "ns"

end Duration
end BackupWatch.Time
