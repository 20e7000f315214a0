/-!
The tokens of a YAML text, and the cursor that moves over its characters. Lines end at a line
feed, a carriage return, both together, or one of three Unicode breaks.
-/

namespace BackupWatch.Yaml

/-- A tag as bytes: what percent signs put together need not be text. -/
structure Tag where
  bytes : List UInt8
  deriving DecidableEq, Repr, Inhabited

namespace Tag

/-- A zero byte ends a tag. -/
def ofBytes (bytes : List UInt8) : Tag := ⟨bytes.takeWhile (· != 0)⟩

def ofText (s : String) : Tag := ofBytes s.toUTF8.toList

/-- A tag that begins with this one. -/
def followedBy (stem suffix : Tag) : Tag := ⟨stem.bytes ++ suffix.bytes⟩

/-- Whether a tag begins with an exclamation mark, and so belongs to the document. -/
def isLocal (t : Tag) : Bool := t.bytes.head? == some 33

/-- The name of a local tag: what stands behind its exclamation mark, or the mark itself if it
stands alone. A local tag whose bytes are no text has no name. -/
def name? (t : Tag) : Option String :=
  match t.bytes with
  | 33 :: [] => some "!"
  | 33 :: rest => String.fromUTF8? rest.toByteArray
  | _ => none

end Tag

inductive Token
  | versionDirective (major minor : Nat)
  | tagDirective (handle : String) (stem : Tag)
  | documentStart
  | documentEnd
  | blockSequenceStart
  | blockMappingStart
  /-- The end of a block collection, where the text is less indented again. -/
  | blockEnd
  | flowSequenceStart
  | flowSequenceEnd
  | flowMappingStart
  | flowMappingEnd
  | blockEntry
  | flowEntry
  | key
  | value
  /-- A name that stands for an anchored node. -/
  | reference (name : String)
  | anchor (name : String)
  | tag (handle : String) (suffix : Tag)
  | scalar (text : String) (plain : Bool)
  deriving DecidableEq, Repr, Inhabited

def isBreak (c : Char) : Bool :=
  c == '\n' || c == '\x0d' || c == '\u0085' || c == '\u2028' || c == '\u2029'

def isSpace (c : Char) : Bool := c == ' ' || c == '\t'

/-- Blanks, breaks and the end of the text separate tokens. -/
def endsWord : Option Char → Bool
  | none => true
  | some c => isSpace c || isBreak c

def endsLine : Option Char → Bool
  | none => true
  | some c => isBreak c

/-- Characters of anchors and tag handles. -/
def isWordChar (c : Char) : Bool :=
  ('0' ≤ c && c ≤ '9') || ('A' ≤ c && c ≤ 'Z') || ('a' ≤ c && c ≤ 'z') || c == '_' || c == '-'

structure Cursor where
  rest : List Char
  /-- The number of bytes before the cursor. -/
  index : Nat
  line : Nat
  column : Nat
  deriving Repr, Inhabited

namespace Cursor

def start (text : List Char) : Cursor := ⟨text, 0, 0, 0⟩

def at? (c : Cursor) (n : Nat) : Option Char := c.rest[n]?

def head? (c : Cursor) : Option Char := c.rest.head?

/-- The next character is this one. -/
def sees (c : Cursor) (x : Char) : Bool := c.head? == some x

/-- The size of characters in bytes. -/
def sizeOf (cs : List Char) : Nat := cs.foldl (fun size c => size + c.utf8Size) 0

/-- Moves over characters of one line. -/
def skip (c : Cursor) (n : Nat) : Cursor :=
  { c with
    rest := c.rest.drop n
    index := c.index + sizeOf (c.rest.take n)
    column := c.column + n }

/-- Moves over a break, and gives the text that it stands for. -/
def readBreak (c : Cursor) : List Char × Cursor :=
  match c.rest with
  | '\x0d' :: '\n' :: rest => (['\n'], ⟨rest, c.index + 2, c.line + 1, 0⟩)
  | x :: rest =>
    if isBreak x then
      let text := if x == '\u2028' || x == '\u2029' then x else '\n'
      ([text], ⟨rest, c.index + x.utf8Size, c.line + 1, 0⟩)
    else ([], c)
  | [] => ([], c)

def readWhile (p : Char → Bool) (c : Cursor) : List Char × Cursor :=
  let taken := c.rest.takeWhile p
  (taken, c.skip taken.length)

def skipWhile (p : Char → Bool) (c : Cursor) : Cursor := (c.readWhile p).2

/-- Three dashes or three points at the start of a line, and nothing close behind. -/
def atMarker (c : Cursor) : Bool :=
  c.column == 0
    && ((c.rest.take 3 == ['-', '-', '-']) || (c.rest.take 3 == ['.', '.', '.']))
    && endsWord (c.at? 3)

/-- Moves over blanks and a comment to the end of the line; fails if something else is there. -/
def finishLine? (c : Cursor) : Option Cursor :=
  let c := c.skipWhile isSpace
  let c := if c.sees '#' then c.skipWhile (fun x => !isBreak x) else c
  if endsLine c.head? then some c.readBreak.2 else none

end Cursor
end BackupWatch.Yaml
