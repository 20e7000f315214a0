/-!
Decimal notation for floating-point numbers: an optional sign, digits with at most one point
among them, and an optional exponent.
-/

namespace BackupWatch.Decimal

def isDigit (c : Char) : Bool := '0' ≤ c && c ≤ '9'

def digitsValue (cs : List Char) : Nat :=
  cs.foldl (fun acc c => acc * 10 + (c.toNat - 48)) 0

/-- A decimal in scientific form, `mantissa * 10 ^ exponent` or its opposite. -/
structure Scientific where
  negative : Bool
  mantissa : Nat
  exponent : Int
  deriving Repr, Inhabited

namespace Scientific

/-- The sign at the front, if there is one. -/
def sign : List Char → Bool × List Char
  | '-' :: rest => (true, rest)
  | '+' :: rest => (false, rest)
  | rest => (false, rest)

/-- The exponent after its letter; no letter is the exponent zero. -/
def exponentPart : List Char → Option Int
  | [] => some 0
  | c :: rest =>
    if c = 'e' ∨ c = 'E' then
      let (negative, digits) := sign rest
      if digits = [] ∨ !digits.all isDigit then none
      else some (if negative then -(digitsValue digits : Int) else digitsValue digits)
    else none

/-- Reads a whole text; a point needs a digit on one side at least. -/
def read (cs : List Char) : Option Scientific :=
  let (negative, cs) := sign cs
  let whole := cs.takeWhile isDigit
  let afterWhole := cs.dropWhile isDigit
  let (fraction, afterFraction) := match afterWhole with
    | '.' :: rest => (rest.takeWhile isDigit, rest.dropWhile isDigit)
    | rest => ([], rest)
  if whole = [] ∧ fraction = [] then none
  else do
    let e ← exponentPart afterFraction
    some ⟨negative, digitsValue (whole ++ fraction), e - fraction.length⟩

/-- The nearest floating-point number, unless it is infinite. Exponents far outside the range
are decided without computing the power of ten. -/
def toFloat? (d : Scientific) : Option Float :=
  let size : Int := (toString d.mantissa).length + d.exponent
  let value : Option Float :=
    if d.mantissa = 0 ∨ size < -400 then some 0.0
    else if 400 < size then none
    else
      let x := Float.ofScientific d.mantissa (d.exponent < 0) d.exponent.natAbs
      if x.isFinite then some x else none
  value.map fun x => if d.negative then -x else x

end Scientific
end BackupWatch.Decimal
