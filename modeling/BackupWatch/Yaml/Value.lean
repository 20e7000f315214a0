import BackupWatch.Decimal.Shortest
import BackupWatch.Text.Quoted

/-!
YAML values and the text that shows one in a message: every value under the name of its kind,
except the plain keys of a mapping.
-/

namespace BackupWatch.Yaml

open Decimal

inductive Number
  | integer (value : Int)
  | float (value : Float)
  deriving Repr, Inhabited

namespace Number

def text : Number → String
  | integer n => toString n
  | float x => (Binary.ofFloat x).text

/-- Integers and floats are never the same number; no number is the same as no number. -/
def same : Number → Number → Bool
  | integer a, integer b => a == b
  | float a, float b => (a.isNaN && b.isNaN) || a == b
  | _, _ => false

end Number

inductive Value
  | null
  | bool (value : Bool)
  | number (value : Number)
  | string (text : String)
  | sequence (items : List Value)
  | mapping (entries : List (Value × Value))
  | tagged (tag : String) (value : Value)
  deriving Inhabited

namespace Value

/-- A tag without its exclamation mark, unless it is nothing else. -/
def bareTag (tag : String) : String :=
  match tag.toList with
  | ['!'] => tag
  | '!' :: rest => String.ofList rest
  | _ => tag

mutual

/-- Equality of keys. The order of a mapping plays no part. -/
def same : Value → Value → Bool
  | null, null => true
  | bool a, bool b => a == b
  | number a, number b => a.same b
  | string a, string b => a == b
  | sequence xs, sequence ys => sameItems xs ys
  | mapping xs, mapping ys => xs.length == ys.length && allAmong xs ys
  | tagged t x, tagged u y => bareTag t == bareTag u && same x y
  | _, _ => false

def sameItems : List Value → List Value → Bool
  | [], [] => true
  | x :: xs, y :: ys => same x y && sameItems xs ys
  | _, _ => false

/-- Every entry has its equal among others. -/
def allAmong : List (Value × Value) → List (Value × Value) → Bool
  | [], _ => true
  | (k, v) :: rest, ys => ys.any (fun e => same k e.1 && same v e.2) && allAmong rest ys

end

mutual

def text : Value → String
  | null => "Null"
  | bool b => "Bool(" ++ toString b ++ ")"
  | number n => "Number(" ++ n.text ++ ")"
  | string s => "String(" ++ Text.quoted s ++ ")"
  | sequence items => "Sequence " ++ Text.bracketed "[" "]" (itemTexts items)
  | mapping entries => "Mapping " ++ Text.bracketed "\x7b" "\x7d" (entryTexts entries)
  | tagged tag value =>
    "TaggedValue \x7b tag: !" ++ bareTag tag ++ ", value: " ++ text value ++ " \x7d"

def itemTexts : List Value → List String
  | [] => []
  | item :: rest => text item :: itemTexts rest

def entryTexts : List (Value × Value) → List String
  | [] => []
  | (key, value) :: rest => (keyText key ++ ": " ++ text value) :: entryTexts rest

/-- Truth values, numbers and strings stand alone as keys. -/
def keyText : Value → String
  | bool b => toString b
  | number n => n.text
  | string s => Text.quoted s
  | null => "Null"
  | sequence items => "Sequence " ++ Text.bracketed "[" "]" (itemTexts items)
  | mapping entries => "Mapping " ++ Text.bracketed "\x7b" "\x7d" (entryTexts entries)
  | tagged tag value =>
    "TaggedValue \x7b tag: !" ++ bareTag tag ++ ", value: " ++ text value ++ " \x7d"

end

/-- Whether a key is among the entries of a mapping. -/
def hasKey (entries : List (Value × Value)) (key : Value) : Bool :=
  entries.any fun e => same e.1 key

/-- The value of a string key. -/
def find? (entries : List (Value × Value)) (key : String) : Option Value :=
  (entries.find? fun e => same e.1 (string key)).map Prod.snd

end Value
end BackupWatch.Yaml
