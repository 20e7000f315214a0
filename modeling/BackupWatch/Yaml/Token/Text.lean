import BackupWatch.Yaml.Token

/-!
The texts of scalars. Plain and quoted ones fold their line breaks: a single break becomes a
blank, and of several the first is dropped. Block scalars keep or fold their lines and chop
the breaks at their end as their header says.
-/

namespace BackupWatch.Yaml

/-- Blanks and breaks between two parts of a scalar. -/
structure Gap where
  blanks : List Char
  first : List Char
  others : List Char
  /-- A line has ended in the gap. -/
  broken : Bool
  deriving Repr, Inhabited

namespace Gap

def none : Gap := ⟨[], [], [], false⟩

/-- The gap as text. -/
def fold (g : Gap) : List Char :=
  if g.broken then
    if g.first = ['\n'] then if g.others = [] then [' '] else g.others
    else g.first ++ g.others
  else g.blanks

/-- Reads blanks and breaks. A tab must not stand in for indentation below the given column. -/
def read (indent : Option Int) : (fuel : Nat) → Gap → Cursor → Option (Gap × Cursor)
  | 0, g, c => some (g, c)
  | fuel + 1, g, c =>
    match c.head? with
    | Option.none => some (g, c)
    | some x =>
      if isSpace x then
        if g.broken && x == '\t' && indent.any (fun i => (c.column : Int) < i) then Option.none
        else if g.broken then read indent fuel g (c.skip 1)
        else read indent fuel { g with blanks := g.blanks ++ [x] } (c.skip 1)
      else if isBreak x then
        let (text, c) := c.readBreak
        if g.broken then read indent fuel { g with others := g.others ++ text } c
        else read indent fuel { g with blanks := [], first := text, broken := true } c
      else some (g, c)

end Gap

namespace Plain

def isFlowIndicator (c : Char) : Bool :=
  c == ',' || c == '[' || c == ']' || c == '\x7b' || c == '\x7d'

/-- How far a plain scalar reaches without a blank. In a flow collection, a colon close before
an indicator is an error. -/
def wordLength (flow : Bool) : List Char → Option Nat
  | [] => some 0
  | c :: rest =>
    if endsWord (some c) then some 0
    else if flow && c == ':' && rest.head?.any (fun x => isFlowIndicator x || x == '?') then none
    else if (c == ':' && endsWord rest.head?) || (flow && isFlowIndicator c) then some 0
    else (wordLength flow rest).map (· + 1)

/-- Reads words and the gaps between them. Returns also whether the last gap, which is no part
of the scalar, held a break. -/
def read (flow : Bool) (indent : Int) :
    (fuel : Nat) → (text : List Char) → Gap → Cursor → Option (List Char × Bool × Cursor)
  | 0, _, _, _ => none
  | fuel + 1, text, gap, c =>
    if c.atMarker || c.sees '#' then some (text, gap.broken, c)
    else do
      let n ← wordLength flow c.rest
      let (text, gap) :=
        if n = 0 then (text, gap) else (text ++ gap.fold ++ c.rest.take n, Gap.none)
      let c := c.skip n
      if !(c.head?.any fun x => isSpace x || isBreak x) then return (text, gap.broken, c)
      let (gap, c) ← gap.read (some indent) (c.rest.length + 1) c
      if !flow && (c.column : Int) < indent then return (text, gap.broken, c)
      read flow indent fuel text gap c

end Plain

namespace Quoted

/-- The value of exactly `count` hexadecimal digits. -/
def hexValue : (count : Nat) → List Char → Option Nat
  | 0, _ => some 0
  | count + 1, c :: rest =>
    let digit :=
      if '0' ≤ c ∧ c ≤ '9' then some (c.toNat - 48)
      else if 'a' ≤ c ∧ c ≤ 'f' then some (c.toNat - 87)
      else if 'A' ≤ c ∧ c ≤ 'F' then some (c.toNat - 55)
      else none
    do return (← digit) * 16 ^ count + (← hexValue count rest)
  | _ + 1, [] => none

/-- Escapes of one character after the backslash. -/
def simpleEscape (c : Char) : Option Char :=
  ([('0', '\x00'), ('a', '\x07'), ('b', '\x08'), ('t', '\t'), ('\t', '\t'), ('n', '\n'),
    ('v', '\x0b'), ('f', '\x0c'), ('r', '\x0d'), ('e', '\x1b'), (' ', ' '), ('"', '"'), ('/', '/'),
    ('\\', '\\'), ('N', '\u0085'), ('_', '\u00a0'), ('L', '\u2028'), ('P', '\u2029')]).lookup c

/-- The number of digits behind a numeric escape. -/
def numericEscape (c : Char) : Option Nat := [('x', 2), ('u', 4), ('U', 8)].lookup c

def charOf (n : Nat) : Option Char := if n.isValidChar then some (Char.ofNat n) else none

/-- The character of an escape and the length of the escape, backslash included. -/
def escape? : List Char → Option (Char × Nat)
  | [] => none
  | c :: rest =>
    match simpleEscape c with
    | some x => some (x, 2)
    | none => do
      let digits ← numericEscape c
      return (← charOf (← hexValue digits rest), digits + 2)

/-- Reads up to a blank, a break or the closing quote, and puts the characters in front of those
before them. Returns also whether an escaped break ended the part. -/
def part (single : Bool) :
    (fuel : Nat) → (backwards : List Char) → Cursor → Option (List Char × Bool × Cursor)
  | 0, _, _ => none
  | fuel + 1, backwards, c =>
    match c.rest with
    | [] => some (backwards, false, c)
    | x :: rest =>
      if endsWord (some x) then some (backwards, false, c)
      else if single && x == '\'' then
        if rest.head? == some '\'' then part single fuel ('\'' :: backwards) (c.skip 2)
        else some (backwards, false, c)
      else if !single && x == '"' then some (backwards, false, c)
      else if !single && x == '\\' then
        if rest.head?.any isBreak then some (backwards, true, (c.skip 1).readBreak.2)
        else do
          let (y, n) ← escape? rest
          part single fuel (y :: backwards) (c.skip n)
      else part single fuel (x :: backwards) (c.skip 1)

/-- Reads on after the opening quote, up to and over the closing one. -/
def read (single : Bool) :
    (fuel : Nat) → (backwards : List Char) → Cursor → Option (List Char × Cursor)
  | 0, _, _ => none
  | fuel + 1, backwards, c =>
    if c.atMarker || c.rest.isEmpty then none
    else do
      let (backwards, broken, c) ← part single (c.rest.length + 1) backwards c
      if c.sees (if single then '\'' else '"') then return (backwards.reverse, c.skip 1)
      let (gap, c) ← Gap.read none (c.rest.length + 1) { Gap.none with broken } c
      read single fuel (gap.fold.reverse ++ backwards) c

end Quoted

namespace Block

inductive Chomping
  | strip
  | clip
  | keep
  deriving DecidableEq, Repr, Inhabited

structure Header where
  chomping : Chomping
  /-- Columns of indentation beyond the parent, if they are given. -/
  increment : Option Nat
  deriving Repr, Inhabited

def chomping? : Option Char → Option Chomping
  | some '+' => some .keep
  | some '-' => some .strip
  | _ => none

/-- A digit that is not zero; zero is an error. -/
def increment? (c : Cursor) : Option (Option Nat × Cursor) :=
  match c.head? with
  | some x =>
    if x == '0' then none
    else if '1' ≤ x ∧ x ≤ '9' then some (some (x.toNat - 48), c.skip 1)
    else some (none, c)
  | none => some (none, c)

/-- The chomping sign and the digit in either order. -/
def header? (c : Cursor) : Option (Header × Cursor) :=
  match chomping? c.head? with
  | some chomping => do
    let (increment, c) ← increment? (c.skip 1)
    return (⟨chomping, increment⟩, c)
  | none => do
    let (increment, c) ← increment? c
    match increment, chomping? c.head? with
    | some n, some chomping => return (⟨chomping, some n⟩, c.skip 1)
    | _, _ => return (⟨.clip, increment⟩, c)

/-- Moves over indentation and empty lines. The indentation is given, or zero while it is not
yet known; the deepest column reached decides it then. -/
def breaks (indent : Nat) :
    (fuel : Nat) → (deepest : Nat) → (text : List Char) → Cursor → Option (Nat × List Char × Cursor)
  | 0, deepest, text, c => some (deepest, text, c)
  | fuel + 1, deepest, text, c =>
    let spaces := (c.rest.takeWhile (· == ' ')).length
    let c := c.skip (if indent = 0 then spaces else min spaces (indent - c.column))
    let deepest := max deepest c.column
    if (indent = 0 ∨ c.column < indent) ∧ c.sees '\t' then none
    else if c.head?.any isBreak then
      let (text', c) := c.readBreak
      breaks indent fuel deepest (text ++ text') c
    else some (deepest, text, c)

structure Lines where
  text : List Char
  /-- The break after the last line. -/
  last : List Char
  /-- Breaks of the empty lines after it. -/
  trailing : List Char
  /-- The last line begins with a blank. -/
  blankBefore : Bool

/-- Reads the lines at the indentation. Folding joins two lines by a blank, unless one of them
begins with a blank or empty lines stand between them. -/
def lines (literal : Bool) (indent : Nat) : (fuel : Nat) → Lines → Cursor → Option (Lines × Cursor)
  | 0, l, c => some (l, c)
  | fuel + 1, l, c =>
    if c.column = indent ∧ !c.rest.isEmpty then do
      let blankHere := c.head?.any isSpace
      let joint :=
        if !literal && l.last.head? == some '\n' && !l.blankBefore && !blankHere then
          if l.trailing = [] then [' '] else []
        else l.last
      let (line, c) := c.readWhile fun x => !isBreak x
      let (last, c) := c.readBreak
      let (_, trailing, c) ← breaks indent (c.rest.length + 1) 0 [] c
      lines literal indent fuel ⟨l.text ++ joint ++ l.trailing ++ line, last, trailing, blankHere⟩ c
    else some (l, c)

def chomp (chomping : Chomping) (l : Lines) : List Char :=
  match chomping with
  | .strip => l.text
  | .clip => l.text ++ l.last
  | .keep => l.text ++ l.last ++ l.trailing

/-- Reads a block scalar after its indicator; `parent` is the indentation around it. -/
def read (literal : Bool) (parent : Int) (c : Cursor) : Option (List Char × Cursor) := do
  let (header, c) ← header? c
  let c ← c.finishLine?
  let given := match header.increment with
    | some n => (if 0 ≤ parent then parent.toNat + n else n)
    | none => 0
  let (deepest, trailing, c) ← breaks given (c.rest.length + 1) 0 [] c
  let indent := if given = 0 then max (max deepest (parent + 1).toNat) 1 else given
  let (l, c) ← lines literal indent (c.rest.length + 1) ⟨[], [], trailing, false⟩ c
  return (chomp header.chomping l, c)

end Block
end BackupWatch.Yaml
