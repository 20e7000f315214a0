import BackupWatch.Json.Basic

/-!
Typed reading of JSON. A reader fails on a value of the wrong shape. A field is optional (absent
and null both mean none) or defaulted (absent means the default, null is read like any value).
Members that no reader asks for play no part. A record may be given as the list of its fields
instead, and a word as an object with the word as its only key.
-/

namespace BackupWatch.Json

abbrev Reader (α : Type) := Json → Option α

/-- Text by key. -/
abbrev TextMap := List (String × String)

def TextMap.find? (map : TextMap) (key : String) : Option String := List.lookup key map

def readText : Reader String
  | string s => some s
  | _ => none

def readBool : Reader Bool
  | bool b => some b
  | _ => none

/-- An integer of 64 bits with a sign, written without a point and without an exponent. -/
def readInteger : Reader Int
  | number mantissa 0 =>
    if -9223372036854775808 ≤ mantissa ∧ mantissa < 9223372036854775808 then some mantissa
    else none
  | _ => none

def readArray (read : Reader α) : Reader (List α)
  | array items => items.mapM read
  | _ => none

def readMembers : Reader Members
  | object members => some members
  | _ => none

/-- An object whose values are all strings. -/
def readTextMap : Reader TextMap
  | object members => members.mapM fun m => (readText m.2).map fun s => (m.1, s)
  | _ => none

/-- The fields of a record: the members of an object, or the items of an array that are taken
for the fields in their order, as far as they go. -/
def readRecord (fields : List String) : Reader Members
  | object members => some members
  | array items => if items.length ≤ fields.length then some (fields.zip items) else none
  | _ => none

/-- The fields of a record that an array must give in full. -/
def readFullRecord (fields : List String) : Reader Members
  | object members => some members
  | array items => if items.length = fields.length then some (fields.zip items) else none
  | _ => none

/-- A word of a fixed set, alone or with nothing under it. -/
def readWord : Reader String
  | string s => some s
  | object [(word, null)] => some word
  | _ => none

/-- An optional field: absent and null are no value, anything else must be read. -/
def Members.optional (members : Members) (key : String) (read : Reader α) : Option (Option α) :=
  match members.find? key with
  | none => some none
  | some null => some none
  | some value => (read value).map some

/-- A defaulted field: only absence gives the default. -/
def Members.defaulted (members : Members) (key : String) (default : α) (read : Reader α) :
    Option α :=
  match members.find? key with
  | none => some default
  | some value => read value

def Members.required (members : Members) (key : String) (read : Reader α) : Option α :=
  (members.find? key).bind read

/-- The member for an optional field, left out when there is no value. -/
def optionalMember (key : String) (write : α → Json) (value : Option α) : Members :=
  match value with
  | none => []
  | some v => [(key, write v)]

end BackupWatch.Json
