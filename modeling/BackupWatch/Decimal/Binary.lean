/-!
What a binary floating-point number of 64 bits stands for: a whole number times a power of two,
an infinity, or no number.
-/

namespace BackupWatch.Decimal

inductive Binary
  | nan
  | infinite (negative : Bool)
  /-- The number `mantissa * 2 ^ exponent`, or its opposite. -/
  | finite (negative : Bool) (mantissa : Nat) (exponent : Int)
  deriving DecidableEq, Repr, Inhabited

namespace Binary

/-- Reads the sign, eleven bits of exponent and fifty-two bits of fraction. -/
def ofBits (bits : UInt64) : Binary :=
  let word : Nat := bits.toNat
  let negative := word >>> 63 == 1
  let biased : Nat := (word >>> 52) % 2048
  let fraction : Nat := word % 4503599627370496
  if biased = 2047 then
    if fraction = 0 then infinite negative else nan
  else if biased = 0 then finite negative fraction (-1074)
  else finite negative (4503599627370496 + fraction) ((biased : Int) - 1075)

def ofFloat (x : Float) : Binary := ofBits x.toBits

end Binary
end BackupWatch.Decimal
