import BackupWatch.Decimal.Reading
import BackupWatch.Yaml.Token
import BackupWatch.Yaml.Value

/-!
What a scalar stands for. A plain one is resolved by its look: null, a truth value, an integer,
a float, and a string otherwise. A core tag decides instead of the look, and fails on a text
that it does not fit.
-/

namespace BackupWatch.Yaml

namespace Scalar

def isNull (s : String) : Bool := ["", "null", "Null", "NULL", "~"].contains s

def bool? (s : String) : Option Bool :=
  if ["true", "True", "TRUE"].contains s then some true
  else if ["false", "False", "FALSE"].contains s then some false
  else none

/-- The digit of a character in a base of at most sixteen. -/
def digitIn (base : Nat) (c : Char) : Option Nat :=
  let value :=
    if '0' ≤ c ∧ c ≤ '9' then c.toNat - 48
    else if 'a' ≤ c ∧ c ≤ 'f' then c.toNat - 87
    else if 'A' ≤ c ∧ c ≤ 'F' then c.toNat - 55
    else base
  if value < base then some value else none

/-- The value of a nonempty run of digits. -/
def natIn (base : Nat) (digits : List Char) : Option Nat :=
  if digits = [] then none
  else digits.foldlM (fun acc c => (digitIn base c).map fun d => acc * base + d) 0

/-- Zero followed by more digits, with or without a sign, is no number. -/
def hasLeadingZero (cs : List Char) : Bool :=
  let body := match cs with
    | '-' :: rest => rest
    | '+' :: rest => rest
    | rest => rest
  match body with
  | '0' :: c :: rest => (c :: rest).all Decimal.isDigit
  | _ => false

/-- Digits in the base that their first two characters announce. -/
def announced? : List Char → Option Nat
  | '0' :: 'x' :: rest => natIn 16 rest
  | '0' :: 'o' :: rest => natIn 8 rest
  | '0' :: 'b' :: rest => natIn 2 rest
  | _ => none

/-- An integer without bounds. -/
def integer? (cs : List Char) : Option Int :=
  let (negative, body) := match cs with
    | '-' :: rest => (true, rest)
    | '+' :: rest => (false, rest)
    | rest => (false, rest)
  let magnitude := (announced? body).or (if hasLeadingZero cs then none else natIn 10 body)
  magnitude.map fun n => if negative then -(n : Int) else n

/-- The special floats, and decimals that are not too large. -/
def float? (cs : List Char) : Option Float :=
  let unsigned := match cs with
    | '+' :: rest => rest
    | rest => rest
  let doubled := match cs with
    | '+' :: '+' :: _ => true
    | '+' :: '-' :: _ => true
    | _ => false
  if doubled then none
  else if [".inf", ".Inf", ".INF"].contains (String.ofList unsigned) then some (1.0 / 0.0)
  else if ["-.inf", "-.Inf", "-.INF"].contains (String.ofList cs) then some (-1.0 / 0.0)
  else if [".nan", ".NaN", ".NAN"].contains (String.ofList cs) then some (0.0 / 0.0)
  else (Decimal.Scientific.read unsigned).bind Decimal.Scientific.toFloat?

/-- Integers are held in 64 bits, with or without a sign. Larger ones of up to 128 bits are
refused; what is larger still is no integer. -/
def boundedInteger (n : Int) : Option (Option Value) :=
  if -9223372036854775808 ≤ n ∧ n < 18446744073709551616 then some (some (.number (.integer n)))
  else if -170141183460469231731687303715884105728 ≤ n ∧
      n < 340282366920938463463374607431768211456 then none
  else some none

/-- The value of an integer text: none if it is no integer. -/
def integerValue (s : String) : Option (Option Value) :=
  match integer? s.toList with
  | none => some none
  | some n => boundedInteger n

/-- Resolves a plain scalar. -/
def resolve (s : String) : Option Value :=
  if isNull s then some .null
  else
    match bool? s with
    | some b => some (.bool b)
    | none => do
      match ← integerValue s with
      | some v => return v
      | none =>
        if hasLeadingZero s.toList then return .string s
        else
          match float? s.toList with
          | some x => return .number (.float x)
          | none => return .string s

def coreTag (name : String) : Tag := .ofText ("tag:yaml.org,2002:" ++ name)

/-- The value of a scalar whose tag is none of the document's own. -/
def withTag (tag : Tag) (s : String) : Option Value :=
  if tag = coreTag "bool" then (bool? s).map Value.bool
  else if tag = coreTag "int" then (integerValue s).bind id
  else if tag = coreTag "float" then (float? s.toList).map fun x => .number (.float x)
  else if tag = coreTag "null" then if isNull s ∧ s ≠ "" then some .null else none
  else some (.string s)

end Scalar
end BackupWatch.Yaml
