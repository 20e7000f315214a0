import BackupWatch.Decimal.Reading
import BackupWatch.Text.Blank

/-!
Time stamps: a date of the Gregorian calendar, a time of day, and its distance from universal
time. The written form has a `T` or one blank between date and time and allows blanks around
the other marks; the year may have a sign and then any number of digits.
-/

namespace BackupWatch.Time

open Decimal Text

structure Stamp where
  year : Int
  month : Nat
  day : Nat
  hour : Nat
  minute : Nat
  /-- Up to sixty, for a leap second. -/
  second : Nat
  /-- Seconds ahead of universal time. -/
  offset : Int
  deriving DecidableEq, Repr, Inhabited

namespace Stamp

def isLeapYear (year : Int) : Bool := year % 4 == 0 && (year % 100 != 0 || year % 400 == 0)

def daysIn (year : Int) (month : Nat) : Nat :=
  if month = 2 then if isLeapYear year then 29 else 28
  else if [4, 6, 9, 11].contains month then 30
  else 31

def firstYear : Int := -262143

def lastYear : Int := 262142

/-- Seconds since midnight, of universal time but counted in the local day. -/
def universalSeconds (s : Stamp) : Int :=
  s.hour * 3600 + s.minute * 60 + min s.second 59 - s.offset

/-- The day of universal time lies in the years that are known, too. -/
def isKnownDay (s : Stamp) : Bool :=
  !(s.year == firstYear && s.month == 1 && s.day == 1 && s.universalSeconds < 0)
    && !(s.year == lastYear && s.month == 12 && s.day == 31 && 86400 ≤ s.universalSeconds)

def isValid (s : Stamp) : Bool :=
  firstYear ≤ s.year && s.year ≤ lastYear
    && 1 ≤ s.month && s.month ≤ 12 && 1 ≤ s.day && s.day ≤ daysIn s.year s.month
    && s.hour ≤ 23 && s.minute ≤ 59 && s.second ≤ 60
    && -86400 < s.offset && s.offset < 86400 && s.isKnownDay

/-- A number of at most `width` digits. -/
def digits (width : Nat) (cs : List Char) : Option (Nat × List Char) :=
  let taken := (cs.take width).takeWhile isDigit
  if taken = [] then none else some (digitsValue taken, cs.drop taken.length)

/-- A number of one or two digits behind blanks. -/
def part (cs : List Char) : Option (Nat × List Char) := digits 2 (cs.dropWhile isBlank)

/-- A mark behind blanks. -/
def mark (c : Char) (cs : List Char) : Option (List Char) :=
  match cs.dropWhile isBlank with
  | x :: rest => if x = c then some rest else none
  | [] => none

/-- Without a sign a year has at most four digits. -/
def yearPart (cs : List Char) : Option (Int × List Char) :=
  match cs.dropWhile isBlank with
  | '-' :: rest => (digits rest.length rest).map fun (n, rest) => (-(n : Int), rest)
  | '+' :: rest => (digits rest.length rest).map fun (n, rest) => ((n : Int), rest)
  | rest => (digits 4 rest).map fun (n, rest) => ((n : Int), rest)

def separator : List Char → Option (List Char)
  | c :: rest => if c = 'T' ∨ c = 't' ∨ c = ' ' then some rest else none
  | [] => none

/-- A fraction of a second, which may be missing; a point needs a digit behind it. -/
def fraction : List Char → Option (List Char)
  | '.' :: rest =>
    if rest.head?.any isDigit then some (rest.dropWhile isDigit) else none
  | rest => some rest

def twoDigits : List Char → Option (Nat × List Char)
  | a :: b :: rest =>
    if isDigit a && isDigit b then some (digitsValue [a, b], rest) else none
  | _ => none

/-- The hours and minutes of an offset, with colons and blanks between them. -/
def offsetSize (cs : List Char) : Option (Nat × List Char) := do
  let (hours, rest) ← twoDigits cs
  let (minutes, rest) ← twoDigits (rest.dropWhile fun c => c == ':' || isBlank c)
  if 59 < minutes then none else return (hours * 3600 + minutes * 60, rest)

/-- The letters of universal time, or a signed offset. -/
def offsetPart (cs : List Char) : Option (Int × List Char) :=
  if (cs.take 3).map Char.toUpper = ['U', 'T', 'C'] then some (0, cs.drop 3)
  else
    match cs with
    | [] => none
    | c :: rest =>
      if c = 'Z' ∨ c = 'z' then some (0, rest)
      else if c = '+' then (offsetSize rest).map fun (n, rest) => ((n : Int), rest)
      else if c = '-' ∨ c = '\u2212' then (offsetSize rest).map fun (n, rest) => (-(n : Int), rest)
      else none

def read (cs : List Char) : Option Stamp := do
  let (year, cs) ← yearPart cs
  let (month, cs) ← part (← mark '-' cs)
  let (day, cs) ← part (← mark '-' cs)
  let (hour, cs) ← part (← separator cs)
  let (minute, cs) ← part (← mark ':' cs)
  let (second, cs) ← part (← mark ':' cs)
  let (offset, cs) ← offsetPart ((← fraction cs).dropWhile isBlank)
  let stamp : Stamp := ⟨year, month, day, hour, minute, second, offset⟩
  if cs.all isBlank ∧ stamp.isValid then some stamp else none

/-- Reads a time stamp, which must be a point in time. -/
def ofText? (text : String) : Option Stamp := read text.toList

end Stamp
end BackupWatch.Time
