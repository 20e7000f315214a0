/-!
JSON values. The members of an object are an ordered list, and a key stands for its first
member.
-/

namespace BackupWatch

inductive Json
  | null
  | bool (value : Bool)
  /-- The number `mantissa * 10 ^ exponent`. The exponent is zero just if the number is written
  as an integer. -/
  | number (mantissa exponent : Int)
  | string (text : String)
  | array (items : List Json)
  | object (members : List (String × Json))
  deriving Inhabited

namespace Json

abbrev Members := List (String × Json)

/-- The value of a key in the members of an object. -/
def Members.find? (members : Members) (key : String) : Option Json :=
  List.lookup key members

/-- The member of a value that is an object. -/
def member? (value : Json) (key : String) : Option Json :=
  match value with
  | object members => Members.find? members key
  | _ => none

def text? : Json → Option String
  | string s => some s
  | _ => none

/-- Sets a key, in place if it is there and at the end if not. -/
def Members.insert (members : Members) (key : String) (value : Json) : Members :=
  match members with
  | [] => [(key, value)]
  | (k, v) :: rest => if k = key then (k, value) :: rest else (k, v) :: insert rest key value

def Members.erase (members : Members) (key : String) : Members :=
  members.filter fun m => m.1 != key

/-- Sets a member; a value that is no object becomes one. -/
def setMember (value : Json) (key : String) (item : Json) : Json :=
  match value with
  | object members => object (Members.insert members key item)
  | _ => object [(key, item)]

def eraseMember (value : Json) (key : String) : Json :=
  match value with
  | object members => object (Members.erase members key)
  | other => other

@[simp] theorem Members.find?_insert_self (members : Members) (key : String) (value : Json) :
    (members.insert key value).find? key = some value := by
  induction members with
  | nil => simp [insert, find?]
  | cons m rest ih =>
    obtain ⟨k, v⟩ := m
    by_cases h : k = key
    · subst h
      simp [insert, find?]
    · have hne : (key == k) = false := beq_false_of_ne (Ne.symm h)
      simpa [insert, h, find?, List.lookup_cons, hne] using ih

theorem Members.find?_insert_of_ne (members : Members) {key other : String} (value : Json)
    (h : other ≠ key) : (members.insert key value).find? other = members.find? other := by
  have hother : (other == key) = false := beq_false_of_ne h
  induction members with
  | nil => simp [insert, find?, List.lookup_cons, hother]
  | cons m rest ih =>
    obtain ⟨k, v⟩ := m
    by_cases hk : k = key
    · subst hk
      simp [insert, find?, List.lookup_cons, hother]
    · simp only [insert, hk, if_false, find?, List.lookup_cons]
      cases other == k with
      | true => rfl
      | false => simpa [find?] using ih

end Json
end BackupWatch
