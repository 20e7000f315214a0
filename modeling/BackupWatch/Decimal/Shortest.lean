import BackupWatch.Decimal.Binary

/-!
The shortest decimal text of a floating-point number: the fewest digits that read back as the
same number, and of those the nearest. Numbers between 1e-5 and 1e16 are written positionally
and always keep a point.
-/

namespace BackupWatch.Decimal

/-- A positive fraction. -/
structure Ratio where
  num : Nat
  den : Nat
  deriving Repr, Inhabited

namespace Ratio

/-- `n * 2 ^ e`. -/
def scaled (n : Nat) (e : Int) : Ratio := ⟨n <<< e.toNat, 1 <<< (-e).toNat⟩

/-- `n * 10 ^ e`. -/
def decimal (n : Nat) (e : Int) : Ratio := ⟨n * Nat.pow 10 e.toNat, Nat.pow 10 (-e).toNat⟩

def lt (a b : Ratio) : Bool := a.num * b.den < b.num * a.den

def le (a b : Ratio) : Bool := a.num * b.den ≤ b.num * a.den

/-- The whole part of `a / 10 ^ e`. -/
def floorAt (a : Ratio) (e : Int) : Nat :=
  a.num * Nat.pow 10 (-e).toNat / (a.den * Nat.pow 10 e.toNat)

/-- The least `k ≥ from` below `from + fuel` with `1 ≤ a * 10 ^ k`. -/
def leadingZeros (a : Ratio) : Nat → Nat → Nat
  | 0, start => start
  | fuel + 1, start =>
    if a.den ≤ a.num * 10 ^ start then start else leadingZeros a fuel (start + 1)

/-- The exponent of the first decimal digit. -/
def magnitude (a : Ratio) : Int :=
  if a.den ≤ a.num then ((toString (a.num / a.den)).length : Int) - 1
  else -(leadingZeros a 400 0 : Int)

end Ratio

/-- A positive number `mantissa * 2 ^ exponent` with the ends of the interval that rounds to it.
The ends belong to the interval iff the mantissa is even. -/
structure Interval where
  value : Ratio
  low : Ratio
  high : Ratio
  closed : Bool

namespace Interval

/-- Below a power of two the neighbours are twice as close. -/
def of (mantissa : Nat) (exponent : Int) : Interval :=
  let step := if mantissa = 4503599627370496 ∧ -1074 < exponent then 1 else 2
  { value := .scaled (4 * mantissa) (exponent - 2)
    low := .scaled (4 * mantissa - step) (exponent - 2)
    high := .scaled (4 * mantissa + 2) (exponent - 2)
    closed := mantissa % 2 == 0 }

def contains (i : Interval) (x : Ratio) : Bool :=
  if i.closed then i.low.le x && x.le i.high else i.low.lt x && x.lt i.high

/-- The neighbours of the value on the grid of `10 ^ e` that lie in the interval, the nearer
one first if both do. -/
def onGrid? (i : Interval) (e : Int) : Option Nat :=
  let below := i.value.floorAt e
  let lower := i.contains (.decimal below e)
  let upper := i.contains (.decimal (below + 1) e)
  if lower && upper then
    -- the middle between the two neighbours decides, and a tie goes to the even one
    let twice : Ratio := ⟨2 * i.value.num, i.value.den⟩
    let middle : Ratio := .decimal (2 * below + 1) e
    if twice.lt middle then some below
    else if middle.lt twice then some (below + 1)
    else some (if below % 2 = 0 then below else below + 1)
  else if lower then some below
  else if upper then some (below + 1)
  else none

/-- Tries one more digit at a time. -/
def shortestFrom (i : Interval) (top : Int) : Nat → Nat → Nat × Int
  | 0, digits =>
    let e := top - digits
    (i.value.floorAt e, e)
  | fuel + 1, digits =>
    let e := top - digits
    match i.onGrid? e with
    | some n => (n, e)
    | none => shortestFrom i top fuel (digits + 1)

/-- Digits and exponent of the shortest decimal in the interval. -/
def shortest (i : Interval) : Nat × Int := i.shortestFrom i.value.magnitude 17 0

end Interval

/-- Moves the zeros at the end of `n` into the exponent. -/
def dropZeros : Nat → Nat → Int → Nat × Int
  | 0, n, e => (n, e)
  | fuel + 1, n, e => if n % 10 = 0 ∧ 0 < n then dropZeros fuel (n / 10) (e + 1) else (n, e)

def zeros (n : Nat) : String := String.ofList (List.replicate n '0')

/-- The text of `digits * 10 ^ exponent`, where `digits` has no zero at its end. -/
def positional (digits : Nat) (exponent : Int) : String :=
  let shown := toString digits
  let point : Int := shown.length + exponent
  if 0 ≤ exponent ∧ point ≤ 16 then shown ++ zeros exponent.toNat ++ ".0"
  else if 0 < point ∧ point ≤ 16 then
    (shown.take point.toNat).toString ++ "." ++ (shown.drop point.toNat).toString
  else if -5 < point ∧ point ≤ 0 then "0." ++ zeros (-point).toNat ++ shown
  else
    let first := (shown.take 1).toString
    let rest := (shown.drop 1).toString
    (if rest = "" then first else first ++ "." ++ rest) ++ "e" ++ toString (point - 1)

def Binary.text : Binary → String
  | .nan => ".nan"
  | .infinite negative => if negative then "-.inf" else ".inf"
  | .finite negative mantissa exponent =>
    let sign := if negative then "-" else ""
    if mantissa = 0 then sign ++ "0.0"
    else
      let (n, e) := (Interval.of mantissa exponent).shortest
      let (digits, e) := dropZeros 20 n e
      sign ++ positional digits e

end BackupWatch.Decimal
