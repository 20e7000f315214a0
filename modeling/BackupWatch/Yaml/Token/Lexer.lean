import BackupWatch.Yaml.Token.Text

/-!
The tokens of a YAML text. Indentation opens and closes block collections. A token that may turn
out to be a key is remembered with its place, and a colon behind it puts the key mark, and the
start of a mapping if need be, in front of it; it must stand on one line and within 1024
bytes.
-/

namespace BackupWatch.Yaml

/-- A place where a key mark may have to be put. -/
structure PossibleKey where
  /-- A key must follow here, since the place is at the indentation of a block mapping. -/
  required : Bool
  /-- The number of tokens before it. -/
  position : Nat
  index : Nat
  line : Nat
  column : Nat
  deriving Repr, Inhabited

structure Lexer where
  cursor : Cursor
  tokens : Array Token
  /-- The possible key of the block context and of each open flow collection, the innermost
  first. -/
  keys : List (Option PossibleKey)
  indent : Int
  outerIndents : List Int
  keyAllowed : Bool
  deriving Inhabited

namespace Lexer

def start (text : List Char) : Lexer := ⟨.start text, #[], [none], -1, [], true⟩

def inFlow (l : Lexer) : Bool := l.keys.length > 1

def emit (l : Lexer) (t : Token) : Lexer := { l with tokens := l.tokens.push t }

def insertToken (l : Lexer) (position : Nat) (t : Token) : Lexer :=
  { l with tokens := l.tokens.extract 0 position ++ #[t]
      ++ l.tokens.extract position l.tokens.size }

/-- Emits a token for the next characters. -/
def indicator (l : Lexer) (length : Nat) (t : Token) : Lexer :=
  { l.emit t with cursor := l.cursor.skip length }

def dropKey : Option PossibleKey → Option (Option PossibleKey)
  | none => some none
  | some k => if k.required then none else some none

/-- Gives up the possible key of the innermost context; fails if it was required. -/
def forgetKey (l : Lexer) : Option Lexer :=
  match l.keys with
  | [] => some l
  | k :: outer => do return { l with keys := (← dropKey k) :: outer }

/-- Remembers the place of the next token as a possible key. -/
def saveKey (l : Lexer) : Option Lexer :=
  if l.keyAllowed then do
    let l ← l.forgetKey
    let c := l.cursor
    let k : PossibleKey :=
      ⟨!l.inFlow && l.indent == c.column, l.tokens.size, c.index, c.line, c.column⟩
    return { l with keys := some k :: l.keys.tail }
  else some l

def isStale (c : Cursor) (k : PossibleKey) : Bool :=
  k.line < c.line || k.index + 1024 < c.index

/-- Gives up the possible keys that the cursor has left behind. -/
def forgetStale (l : Lexer) : Option Lexer := do
  let keys ← l.keys.mapM fun k =>
    if k.any (isStale l.cursor) then dropKey k else some k
  return { l with keys }

/-- Opens a block collection if the column is deeper than the indentation. -/
def openBlock (l : Lexer) (column position : Nat) (t : Token) : Lexer :=
  if l.inFlow then l
  else if l.indent < column then
    { l with indent := column, outerIndents := l.indent :: l.outerIndents }.insertToken position t
  else l

/-- Closes the block collections that are deeper than the column. -/
def closeBlocks (column : Int) : List Int → Lexer → Lexer
  | [], l => l
  | outer :: rest, l =>
    if l.indent > column then
      closeBlocks column rest { l.emit .blockEnd with indent := outer, outerIndents := rest }
    else l

def unindent (l : Lexer) (column : Int) : Lexer :=
  if l.inFlow then l else closeBlocks column l.outerIndents l

/-- Moves over blanks, comments and breaks, and over a byte order mark that begins a line. A tab
does not count as a blank where a key may begin, except in a flow collection. -/
def skipGap : (fuel : Nat) → Lexer → Lexer
  | 0, l => l
  | fuel + 1, l =>
    let c := if l.cursor.column == 0 && l.cursor.sees '\ufeff' then l.cursor.skip 1 else l.cursor
    let tabs := l.inFlow || !l.keyAllowed
    let c := c.skipWhile fun x => x == ' ' || (tabs && x == '\t')
    let c := if c.sees '#' then c.skipWhile (fun x => !isBreak x) else c
    if c.head?.any isBreak then
      skipGap fuel { l with cursor := c.readBreak.2, keyAllowed := l.keyAllowed || !l.inFlow }
    else { l with cursor := c }

def documentMark (l : Lexer) (t : Token) : Option Lexer := do
  let l ← (l.unindent (-1)).forgetKey
  return { l with keyAllowed := false }.indicator 3 t

def openFlow (l : Lexer) (t : Token) : Option Lexer := do
  let l ← l.saveKey
  return { l with keys := none :: l.keys, keyAllowed := true }.indicator 1 t

def closeFlow (l : Lexer) (t : Token) : Option Lexer := do
  let l ← l.forgetKey
  let keys := if l.inFlow then l.keys.tail else l.keys
  return { l with keys, keyAllowed := false }.indicator 1 t

def flowEntry (l : Lexer) : Option Lexer := do
  let l ← l.forgetKey
  return { l with keyAllowed := true }.indicator 1 .flowEntry

/-- Opens a block collection for an indicator at the cursor; it must stand where a key may. -/
def blockIndicator (l : Lexer) (t : Token) : Option Lexer :=
  if l.inFlow then some l
  else if l.keyAllowed then some (l.openBlock l.cursor.column l.tokens.size t)
  else none

def blockEntry (l : Lexer) : Option Lexer := do
  let l ← (← l.blockIndicator .blockSequenceStart).forgetKey
  return { l with keyAllowed := true }.indicator 1 .blockEntry

def keyMark (l : Lexer) : Option Lexer := do
  let l ← (← l.blockIndicator .blockMappingStart).forgetKey
  return { l with keyAllowed := !l.inFlow }.indicator 1 .key

def valueMark (l : Lexer) : Option Lexer :=
  match l.keys with
  | some k :: outer =>
    let l := (l.insertToken k.position .key).openBlock k.column k.position .blockMappingStart
    some ({ l with keys := none :: outer, keyAllowed := false }.indicator 1 .value)
  | _ => do
    let l ← l.blockIndicator .blockMappingStart
    return { l with keyAllowed := !l.inFlow }.indicator 1 .value

/-- The name behind an anchor or alias sign. -/
def name (l : Lexer) (make : String → Token) : Option Lexer := do
  let l ← l.saveKey
  let (name, c) := (l.cursor.skip 1).readWhile isWordChar
  let closed := endsWord c.head? || c.head?.any fun x =>
    ['?', ':', ',', ']', '\x7d', '%', '@', Char.ofNat 0x60].contains x
  if name = [] ∨ !closed then none
  else return { l.emit (make (String.ofList name)) with cursor := c, keyAllowed := false }

def isUriChar (verbatim : Bool) (c : Char) : Bool :=
  isWordChar c
    || [';', '/', '?', ':', '@', '&', '=', '+', '$', '.', '!', '~', '*', '\'', '(', ')',
      '%'].contains c
    || (verbatim && [',', '[', ']'].contains c)

/-- The number of bytes of the character that a byte begins. Only the leading bits count, so
that the bytes need not be those of a character at all. -/
def leadWidth? (byte : Nat) : Option Nat :=
  if byte / 128 = 0 then some 1
  else if byte / 32 = 6 then some 2
  else if byte / 16 = 14 then some 3
  else if byte / 8 = 30 then some 4
  else none

/-- Undoes the percent signs. `due` more bytes of a begun character must follow at once. -/
def unescapeUri : (due : Nat) → List Char → Option (List UInt8)
  | due, '%' :: a :: b :: rest => do
    let byte ← Quoted.hexValue 2 [a, b]
    let due ← match due with
      | 0 => (leadWidth? byte).map (· - 1)
      | due + 1 => if byte / 64 = 2 then some due else none
    return byte.toUInt8 :: (← unescapeUri due rest)
  | 0, c :: rest => if c = '%' then none else (unescapeUri 0 rest).map (c.toNat.toUInt8 :: ·)
  | 0, [] => some []
  | _ + 1, _ => none

/-- Characters of a tag, which may be none at all. -/
def uri? (verbatim : Bool) (c : Cursor) : Option (List UInt8 × Cursor) := do
  let (raw, c) := c.readWhile (isUriChar verbatim)
  return (← unescapeUri 0 raw, c)

/-- An exclamation mark, word characters, and perhaps another exclamation mark. -/
def handle? (c : Cursor) : Option (List Char × Cursor) :=
  if c.sees '!' then
    let (word, c) := (c.skip 1).readWhile isWordChar
    if c.sees '!' then some ('!' :: word ++ ['!'], c.skip 1) else some ('!' :: word, c)
  else none

/-- Handle and suffix of a tag. A lone exclamation mark has an empty handle. -/
def tagParts (c : Cursor) : Option (String × Tag × Cursor) :=
  if c.at? 1 == some '<' then do
    let (suffix, c) ← uri? true (c.skip 2)
    if suffix = [] ∨ !c.sees '>' then none else return ("", .ofBytes suffix, c.skip 1)
  else do
    let (handle, c) ← handle? c
    let (suffix, c) ← uri? false c
    if 1 < handle.length ∧ handle.getLast? = some '!' then
      if suffix = [] then none else return (String.ofList handle, .ofBytes suffix, c)
    else
      let suffix := Tag.followedBy (.ofText (String.ofList handle.tail)) (.ofBytes suffix)
      return if suffix.bytes = [] then ("", .ofText "!", c) else ("!", suffix, c)

def tag (l : Lexer) : Option Lexer := do
  let l ← l.saveKey
  let (handle, suffix, c) ← tagParts l.cursor
  if endsWord c.head? || (l.inFlow && c.sees ',') then
    return { l.emit (.tag handle suffix) with cursor := c, keyAllowed := false }
  else none

def blockScalar (l : Lexer) (literal : Bool) : Option Lexer := do
  let l ← l.forgetKey
  let (text, c) ← Block.read literal l.indent (l.cursor.skip 1)
  return { l.emit (.scalar (String.ofList text) false) with cursor := c, keyAllowed := true }

def quotedScalar (l : Lexer) (single : Bool) : Option Lexer := do
  let l ← l.saveKey
  let c := l.cursor.skip 1
  let (text, c) ← Quoted.read single (c.rest.length + 1) [] c
  return { l.emit (.scalar (String.ofList text) false) with cursor := c, keyAllowed := false }

/-- After a plain scalar that ended on an earlier line a key may begin. -/
def plainScalar (l : Lexer) : Option Lexer := do
  let l ← l.saveKey
  let c := l.cursor
  let (text, broken, c) ← Plain.read l.inFlow (l.indent + 1) (c.rest.length + 1) [] Gap.none c
  return { l.emit (.scalar (String.ofList text) true) with cursor := c, keyAllowed := broken }

def number? (c : Cursor) : Option (Nat × Cursor) :=
  let (digits, c) := c.readWhile fun x => '0' ≤ x && x ≤ '9'
  if digits = [] ∨ 9 < digits.length then none
  else some (digits.foldl (fun acc x => acc * 10 + (x.toNat - 48)) 0, c)

def versionDirective (c : Cursor) : Option (Token × Cursor) := do
  let (major, c) ← number? (c.skipWhile isSpace)
  if !c.sees '.' then none
  let (minor, c) ← number? (c.skip 1)
  return (.versionDirective major minor, c)

def tagDirective (c : Cursor) : Option (Token × Cursor) := do
  let (handle, c) ← handle? (c.skipWhile isSpace)
  if 1 < handle.length ∧ handle.getLast? ≠ some '!' then none
  if !(c.head?.any isSpace) then none
  let (stem, c) ← uri? true (c.skipWhile isSpace)
  if stem = [] ∨ !endsWord c.head? then none
  return (.tagDirective (String.ofList handle) (.ofBytes stem), c)

def directive (l : Lexer) : Option Lexer := do
  let l ← (l.unindent (-1)).forgetKey
  let (name, c) := (l.cursor.skip 1).readWhile isWordChar
  if !endsWord c.head? then none
  let (token, c) ←
    if name = ['Y', 'A', 'M', 'L'] then versionDirective c
    else if name = ['T', 'A', 'G'] then tagDirective c
    else none
  let c ← c.finishLine?
  return { l.emit token with cursor := c, keyAllowed := false }

/-- Characters that begin a token of another kind, so that no plain scalar begins with them. -/
def isIndicator (c : Char) : Bool :=
  ['-', '?', ':', ',', '[', ']', '\x7b', '\x7d', '#', '&', '*', '!', '|', '>', '\'', '"', '%', '@',
    Char.ofNat 0x60].contains c

/-- Reads the token at the cursor, which is at this character. -/
def token (l : Lexer) (x : Char) : Option Lexer :=
  let next := l.cursor.at? 1
  let apart := endsWord next
  if l.cursor.column == 0 && x == '%' then l.directive
  else if l.cursor.atMarker then l.documentMark (if x == '-' then .documentStart else .documentEnd)
  else if x == '[' then l.openFlow .flowSequenceStart
  else if x == '\x7b' then l.openFlow .flowMappingStart
  else if x == ']' then l.closeFlow .flowSequenceEnd
  else if x == '\x7d' then l.closeFlow .flowMappingEnd
  else if x == ',' then l.flowEntry
  else if x == '-' && apart then l.blockEntry
  else if x == '?' && (l.inFlow || apart) then l.keyMark
  else if x == ':' && (l.inFlow || apart) then l.valueMark
  else if x == '*' then l.name .reference
  else if x == '&' then l.name .anchor
  else if x == '!' then l.tag
  else if x == '|' && !l.inFlow then l.blockScalar true
  else if x == '>' && !l.inFlow then l.blockScalar false
  else if x == '\'' then l.quotedScalar true
  else if x == '"' then l.quotedScalar false
  else if (!endsWord (some x) && !isIndicator x) || (x == '-' && !next.any isSpace)
      || (!l.inFlow && (x == '?' || x == ':') && !apart) then l.plainScalar
  else none

/-- Closes everything at the end of the text. -/
def finish (l : Lexer) : Option Lexer := (l.unindent (-1)).forgetKey

/-- Reads one token after another. -/
def run : (fuel : Nat) → Lexer → Option Lexer
  | 0, _ => none
  | fuel + 1, l => do
    let l := skipGap (l.cursor.rest.length + 1) l
    let l := (← l.forgetStale).unindent l.cursor.column
    match l.cursor.head? with
    | none => l.finish
    | some x => run fuel (← l.token x)

end Lexer

/-- Characters that a YAML text may hold. -/
def isYamlChar (c : Char) : Bool :=
  let n := c.toNat
  n == 0x09 || n == 0x0A || n == 0x0D || (0x20 ≤ n && n ≤ 0x7E) || n == 0x85
    || (0xA0 ≤ n && n ≤ 0xD7FF) || (0xE000 ≤ n && n ≤ 0xFFFD) || 0x10000 ≤ n

/-- The tokens of a text; none if it is badly formed. -/
def Token.scan (text : List Char) : Option (List Token) :=
  if text.all isYamlChar then
    (Lexer.run (text.length + 2) (.start text)).map fun l => l.tokens.toList
  else none

end BackupWatch.Yaml
