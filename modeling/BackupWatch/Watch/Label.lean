import BackupWatch.Digest.Sha256

/-!
The label value for a backup name. Label values have at most 63 bytes, so a longer name keeps
its longest run of whole characters of at most 57 bytes and ends in six digits of its digest.
-/

namespace BackupWatch.Watch

/-- The most bytes that a label value may have. -/
def labelLimit : Nat := 63

/-- The digits of the digest that end a shortened value. -/
def labelDigits : Nat := 6

/-- The label in which the backup tool names the backup that an object was made for. -/
def backupLabel : String := "velero.io/backup-name"

/-- The longest run of leading characters of at most `budget` bytes. -/
def takeBytes (budget : Nat) : List Char → List Char
  | [] => []
  | c :: rest => if c.utf8Size ≤ budget then c :: takeBytes (budget - c.utf8Size) rest else []

/-- The first digits of a digest in hexadecimal. -/
def digestDigits (digest : List UInt8) : List Char :=
  (digest.flatMap Digest.hexByte).take labelDigits

/-- The value under a given digest function. -/
def labelValueBy (digest : List UInt8 → List UInt8) (name : String) : String :=
  if name.utf8ByteSize ≤ labelLimit then name
  else String.ofList (takeBytes (labelLimit - labelDigits) name.toList
    ++ digestDigits (digest name.toUTF8.toList))

def labelValue (name : String) : String := labelValueBy Digest.sha256 name

end BackupWatch.Watch
