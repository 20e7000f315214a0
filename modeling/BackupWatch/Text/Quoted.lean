import BackupWatch.Text.Unprintable

/-!
Quoted text for messages: double quotes around it, a backslash before quotes and backslashes,
short escapes for a few control characters, and the code point of every other character that
could not be seen.
-/

namespace BackupWatch.Text

/-- Lower-case hexadecimal digits without zeros in front. -/
def hex (n : Nat) : List Char := Nat.toDigits 16 n

def quoteChar (c : Char) : List Char :=
  if c = '"' then ['\\', '"']
  else if c = '\\' then ['\\', '\\']
  else if c = '\t' then ['\\', 't']
  else if c = '\n' then ['\\', 'n']
  else if c = '\x0d' then ['\\', 'r']
  else if c = '\x00' then ['\\', '0']
  else if isUnprintable c then ['\\', 'u', '\x7b'] ++ hex c.toNat ++ ['\x7d']
  else [c]

def quoted (s : String) : String :=
  String.ofList (['"'] ++ s.toList.flatMap quoteChar ++ ['"'])

/-- The items between the brackets, with a comma and a blank after each but the last. -/
def bracketed (left right : String) (items : List String) : String :=
  left ++ String.intercalate ", " items ++ right

end BackupWatch.Text
