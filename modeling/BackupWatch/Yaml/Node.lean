import BackupWatch.Yaml.Token

/-!
The tree of a YAML document: scalars, collections and aliases, with their tags. Anchored nodes
are numbered in the order of their beginnings; an anchor name stands for a slot, and a slot for
the node that was last put there.
-/

namespace BackupWatch.Yaml

inductive Node
  | reference (slot : Nat)
  | scalar (tag : Option Tag) (text : String) (plain : Bool)
  | sequence (tag : Option Tag) (items : List Node)
  | mapping (tag : Option Tag) (entries : List (Node × Node))
  deriving Inhabited

namespace Node

/-- A value that is not written out. -/
def empty : Node := scalar none "" true

mutual

/-- The number of marks that the node takes in a flat writing of the document: one for a scalar
or an alias, one for each end of a collection. -/
def marks : Node → Nat
  | reference _ => 1
  | scalar _ _ _ => 1
  | sequence _ items => 2 + marksOfItems items
  | mapping _ entries => 2 + marksOfEntries entries

def marksOfItems : List Node → Nat
  | [] => 0
  | item :: rest => marks item + marksOfItems rest

def marksOfEntries : List (Node × Node) → Nat
  | [] => 0
  | (key, value) :: rest => marks key + marks value + marksOfEntries rest

end

end Node

/-- What the reading of a document has come across. -/
structure Anchors where
  handles : List (String × Tag)
  /-- The slot of each anchor name. -/
  slots : List (String × Nat)
  /-- The number of the node in each slot, the newest first. -/
  holders : List (Nat × Nat)
  /-- The anchored nodes that are complete, by their number. -/
  nodes : List (Nat × Node)
  /-- How many anchored nodes have begun. -/
  count : Nat

namespace Anchors

/-- Begins an anchored node. The slot is the number of names known before, so a name that is
anchored again shares its slot with the next new name. -/
def begin (a : Anchors) (name : String) : Nat × Anchors :=
  let slot := a.slots.length
  let others := a.slots.filter fun s => s.1 != name
  (a.count, { a with
    slots := (name, slot) :: others
    holders := (slot, a.count) :: a.holders
    count := a.count + 1 })

def complete (a : Anchors) (number : Nat) (node : Node) : Anchors :=
  { a with nodes := (number, node) :: a.nodes }

/-- The node that an alias stands for. -/
def find? (a : Anchors) (slot : Nat) : Option Node :=
  (a.holders.lookup slot).bind fun number => a.nodes.lookup number

end Anchors

/-- Tokens to come, and what was come across. -/
structure Reading where
  tokens : List Token
  anchors : Anchors

/-- Reads something off the tokens, or fails. -/
abbrev Read (α : Type) := StateT Reading Option α

namespace Read

def peek : Read (Option Token) := do return (← get).tokens.head?

def skip : Read Unit := modify fun r => { r with tokens := r.tokens.tail }

/-- Skips a token if it is the next one. -/
def skipIf (t : Token) : Read Bool := do
  if (← peek) = some t then
    skip
    return true
  return false

def reject : Read α := fun _ => none

/-- The next token is one of these. -/
def isNext (ts : List Token) : Read Bool := do return (← peek).any ts.contains

/-- The tag that a handle and a suffix make; a handle must have been declared. -/
def resolveTag (handle : String) (suffix : Tag) : Read Tag := do
  if handle = "" then return suffix
  match (← get).anchors.handles.lookup handle with
  | some stem => return stem.followedBy suffix
  | none => reject

/-- Anchor and tag in front of a node, in either order. -/
def properties : Read (Option String × Option Tag) := do
  match ← peek with
  | some (.anchor name) =>
    skip
    match ← peek with
    | some (.tag handle suffix) =>
      skip
      return (some name, some (← resolveTag handle suffix))
    | _ => return (some name, none)
  | some (.tag handle suffix) =>
    skip
    match ← peek with
    | some (.anchor name) =>
      skip
      return (some name, some (← resolveTag handle suffix))
    | _ => return (none, some (← resolveTag handle suffix))
  | _ => return (none, none)

/-- Reads a node under an anchor, if there is one. -/
def anchored (name : Option String) (content : Read Node) : Read Node := do
  match name with
  | none => content
  | some name =>
    let r ← get
    let (number, anchors) := r.anchors.begin name
    set { r with anchors }
    let node ← content
    modify fun r => { r with anchors := r.anchors.complete number node }
    return node

/-- Where a node stands. -/
inductive Place
  | block
  /-- In a block mapping, where a sequence need not be indented. -/
  | entry
  | flow
  deriving DecidableEq, Repr, Inhabited

mutual

def node (fuel : Nat) (place : Place) : Read Node :=
  match fuel with
  | 0 => reject
  | fuel + 1 => do
    match ← peek with
    | some (.reference name) =>
      skip
      match (← get).anchors.slots.lookup name with
      | some slot => return .reference slot
      | none => reject
    | _ =>
      let (anchor, tag) ← properties
      anchored anchor (content fuel place (anchor.isSome || tag.isSome) tag)

/-- What follows the properties; after some there need not be anything. -/
def content (fuel : Nat) (place : Place) (hasProperties : Bool) (tag : Option Tag) : Read Node :=
  match fuel with
  | 0 => reject
  | fuel + 1 => do
    match ← peek with
    | some (.scalar text plain) =>
      skip
      return .scalar tag text plain
    | some .flowSequenceStart =>
      skip
      return .sequence tag (← flowItems fuel true)
    | some .flowMappingStart =>
      skip
      return .mapping tag (← flowEntries fuel true)
    | some .blockEntry =>
      if place = .entry then return .sequence tag (← looseItems fuel)
      else bare hasProperties tag
    | some .blockSequenceStart =>
      if place = .flow then bare hasProperties tag
      else
        skip
        return .sequence tag (← blockItems fuel)
    | some .blockMappingStart =>
      if place = .flow then bare hasProperties tag
      else
        skip
        return .mapping tag (← blockEntries fuel)
    | _ => bare hasProperties tag

/-- A node of properties alone. -/
def bare (hasProperties : Bool) (tag : Option Tag) : Read Node :=
  if hasProperties then return .scalar tag "" true else reject

/-- A node, or nothing if one of the given tokens follows. -/
def nodeUnless (fuel : Nat) (place : Place) (stops : List Token) : Read Node :=
  match fuel with
  | 0 => reject
  | fuel + 1 => do
    if ← isNext stops then return .empty
    node fuel place

/-- The value behind its mark, or nothing. -/
def valueUnless (fuel : Nat) (place : Place) (stops : List Token) : Read Node :=
  match fuel with
  | 0 => reject
  | fuel + 1 => do
    if ← skipIf .value then nodeUnless fuel place stops else return .empty

def blockItems (fuel : Nat) : Read (List Node) :=
  match fuel with
  | 0 => reject
  | fuel + 1 => do
    if ← skipIf .blockEnd then return []
    if ← skipIf .blockEntry then
      let item ← nodeUnless fuel .block [.blockEntry, .blockEnd]
      return item :: (← blockItems fuel)
    reject

/-- The items of a sequence that is not indented. -/
def looseItems (fuel : Nat) : Read (List Node) :=
  match fuel with
  | 0 => reject
  | fuel + 1 => do
    if ← skipIf .blockEntry then
      let item ← nodeUnless fuel .block [.blockEntry, .key, .value, .blockEnd]
      return item :: (← looseItems fuel)
    return []

def blockEntries (fuel : Nat) : Read (List (Node × Node)) :=
  match fuel with
  | 0 => reject
  | fuel + 1 => do
    if ← skipIf .blockEnd then return []
    if ← skipIf .key then
      let key ← nodeUnless fuel .entry [.key, .value, .blockEnd]
      let value ← valueUnless fuel .entry [.key, .value, .blockEnd]
      return (key, value) :: (← blockEntries fuel)
    reject

/-- The items up to the closing bracket. A key mark begins a mapping of one entry. -/
def flowItems (fuel : Nat) (first : Bool) : Read (List Node) :=
  match fuel with
  | 0 => reject
  | fuel + 1 => do
    if ← skipIf .flowSequenceEnd then return []
    if !first then
      if !(← skipIf .flowEntry) then reject
    if ← skipIf .key then
      let entry ← singleEntry fuel
      return .mapping none [entry] :: (← flowItems fuel false)
    if ← skipIf .flowSequenceEnd then return []
    let item ← node fuel .flow
    return item :: (← flowItems fuel false)

/-- The entry behind a key mark in a sequence. A key that is not written out takes the next
token with it. -/
def singleEntry (fuel : Nat) : Read (Node × Node) :=
  match fuel with
  | 0 => reject
  | fuel + 1 => do
    let stops : List Token := [.value, .flowEntry, .flowSequenceEnd]
    if ← isNext stops then
      skip
      return (.empty, ← valueUnless fuel .flow [.flowEntry, .flowSequenceEnd])
    let key ← node fuel .flow
    return (key, ← valueUnless fuel .flow [.flowEntry, .flowSequenceEnd])

/-- The entries up to the closing brace. A node without a key mark is a key without a value. -/
def flowEntries (fuel : Nat) (first : Bool) : Read (List (Node × Node)) :=
  match fuel with
  | 0 => reject
  | fuel + 1 => do
    if ← skipIf .flowMappingEnd then return []
    if !first then
      if !(← skipIf .flowEntry) then reject
    if ← skipIf .key then
      let key ← nodeUnless fuel .flow [.value, .flowEntry, .flowMappingEnd]
      let value ← valueUnless fuel .flow [.flowEntry, .flowMappingEnd]
      return (key, value) :: (← flowEntries fuel false)
    if ← skipIf .flowMappingEnd then return []
    let key ← node fuel .flow
    return (key, .empty) :: (← flowEntries fuel false)

end

/-- The handles that need no declaration. -/
def standardHandles : List (String × Tag) :=
  [("!", .ofText "!"), ("!!", .ofText "tag:yaml.org,2002:")]

/-- The directives in front of a document. A version must be 1.1 or 1.2 and stand once, and a
handle be declared once. -/
def directives : (fuel : Nat) → (versioned : Bool) → (handles : List (String × Tag)) →
    Read (List (String × Tag))
  | 0, _, handles => return handles
  | fuel + 1, versioned, handles => do
    match ← peek with
    | some (.versionDirective major minor) =>
      if versioned ∨ major ≠ 1 ∨ (minor ≠ 1 ∧ minor ≠ 2) then reject
      skip
      directives fuel true handles
    | some (.tagDirective handle stem) =>
      if (handles.lookup handle).isSome then reject
      skip
      directives fuel versioned ((handle, stem) :: handles)
    | _ => return handles

def skipAll (t : Token) : (fuel : Nat) → Read Unit
  | 0 => return
  | fuel + 1 => do
    if ← skipIf t then skipAll t fuel

def isDirective : Token → Bool
  | .versionDirective _ _ => true
  | .tagDirective _ _ => true
  | _ => false

/-- The root behind an explicit document start, which may be missing. -/
def explicitRoot (fuel : Nat) : Read Node := do
  match ← peek with
  | none => return .empty
  | some t =>
    if isDirective t ∨ t = .documentStart ∨ t = .documentEnd then return .empty
    node fuel .block

/-- The only document of a text, none if the text is empty. What follows it may only be
document ends. -/
def document (fuel : Nat) : Read (Option Node) := do
  match ← peek with
  | none => return none
  | some first =>
    let handles ← directives fuel false []
    modify fun r => { r with anchors := { r.anchors with handles := handles ++ standardHandles } }
    let explicit ← skipIf .documentStart
    if isDirective first ∧ !explicit then reject
    let root ← if explicit then explicitRoot fuel else node fuel .block
    skipAll .documentEnd fuel
    if (← peek).isSome then reject
    return some root

end Read

/-- The document that tokens make, with its anchors. -/
def Node.ofTokens? (tokens : List Token) : Option (Option Node × Anchors) :=
  let fuel := 4 * tokens.length + 8
  let start : Reading := ⟨tokens, ⟨[], [], [], [], 0⟩⟩
  ((Read.document fuel).run start).map fun (root, r) => (root, r.anchors)

end BackupWatch.Yaml
