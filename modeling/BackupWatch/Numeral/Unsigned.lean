/-!
Unsigned decimal numerals below 2^64: at most one plus sign, then ASCII digits. The first
character that spoils the numeral decides between a bad digit and a number that is too large.
-/

namespace BackupWatch.Numeral

inductive Fault
  | empty
  | invalidDigit
  | tooLarge
  /-- A truth value is neither of the two words. -/
  | notTruthValue
  deriving DecidableEq, Repr, Inhabited

def Fault.message : Fault → String
  | empty => "cannot parse integer from empty string"
  | invalidDigit => "invalid digit found in string"
  | tooLarge => "number too large to fit in target type"
  | notTruthValue => "provided string was not `true` or `false`"

/-- One more than the largest number that is read. -/
def limit : Nat := 18446744073709551616

def digit? (c : Char) : Option Nat :=
  if '0' ≤ c ∧ c ≤ '9' then some (c.toNat - 48) else none

/-- Reads on after the digits whose value is `acc`. -/
def readDigits (acc : Nat) : List Char → Except Fault Nat
  | [] => .ok acc
  | c :: rest =>
    match digit? c with
    | none => .error .invalidDigit
    | some d => if acc * 10 + d < limit then readDigits (acc * 10 + d) rest else .error .tooLarge

def read : List Char → Except Fault Nat
  | [] => .error .empty
  | '+' :: [] => .error .invalidDigit
  | '+' :: rest => readDigits 0 rest
  | digits => readDigits 0 digits

/-- An unsigned numeral as a number. -/
def unsigned (text : String) : Except Fault Nat := read text.toList

/-- Exactly the words `true` and `false`. -/
def truthValue (text : String) : Except Fault Bool :=
  if text = "true" then .ok true
  else if text = "false" then .ok false
  else .error .notTruthValue

end BackupWatch.Numeral
