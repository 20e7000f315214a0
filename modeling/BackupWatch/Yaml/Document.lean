import BackupWatch.Yaml.Node
import BackupWatch.Yaml.Scalar
import BackupWatch.Yaml.Token.Lexer

/-!
YAML documents as values. Aliases are replaced by what they stand for, as often as is allowed;
keys of a mapping must differ; collections may be nested 128 deep.
-/

namespace BackupWatch.Yaml

/-- Counts the aliases that may still be replaced. -/
abbrev Expansion (α : Type) := StateT Nat Option α

namespace Expansion

def reject : Expansion α := fun _ => none

/-- The node itself, or the one that an alias stands for. -/
def target (anchors : Anchors) : Node → Expansion Node
  | .reference slot => do
    match ← get with
    | 0 => reject
    | left + 1 =>
      set left
      match anchors.find? slot with
      | some node => return node
      | none => reject
  | node => return node

/-- A tag with a name makes a tagged value; other tags count for scalars only. -/
def underTag (tag : Option Tag) (untagged : Expansion Value) : Expansion Value :=
  match tag.bind Tag.name? with
  | some name => return .tagged name (← untagged)
  | none => untagged

/-- A local tag leaves it to the look of a scalar what it is. -/
def scalar (tag : Option Tag) (text : String) (plain : Bool) : Expansion Value :=
  let untagged : Option Value := if plain then Scalar.resolve text else some (.string text)
  let value : Option Value := match tag with
    | some t => if t.isLocal then untagged else Scalar.withTag t text
    | none => untagged
  underTag tag (fun left => value.map fun v => (v, left))

/-- The items of a sequence, each expanded. -/
def items (expand : Node → Expansion Value) : List Node → Expansion (List Value)
  | [] => return []
  | n :: rest => do
    let v ← expand n
    return v :: (← items expand rest)

/-- The entries of a mapping, each expanded; a key that is there already is an error. -/
def entries (expand : Node → Expansion Value) :
    (done : List (Value × Value)) → List (Node × Node) → Expansion (List (Value × Value))
  | done, [] => return done
  | done, (k, v) :: rest => do
    let key ← expand k
    if Value.hasKey done key then reject
    let value ← expand v
    entries expand (done ++ [(key, value)]) rest

/-- The value of a node, within collections of at most the given depth. -/
def value (anchors : Anchors) : (depth : Nat) → Node → Expansion Value
  | depth, node => do
    match ← target anchors node, depth with
    | .scalar tag text plain, _ => scalar tag text plain
    | .sequence tag children, depth + 1 =>
      underTag tag (Value.sequence <$> items (value anchors depth) children)
    | .mapping tag children, depth + 1 =>
      underTag tag (Value.mapping <$> entries (value anchors depth) [] children)
    | _, _ => reject

end Expansion

/-- How deep collections may be nested. -/
def depthLimit : Nat := 128

/-- How often aliases may be replaced, per mark of the document. -/
def aliasFactor : Nat := 100

/-- Reads a text as one document; none if it is not. An empty text is null. -/
def parse (text : String) : Option Value := do
  let tokens ← Token.scan text.toList
  let (root, anchors) ← Node.ofTokens? tokens
  match root with
  | none => return .null
  | some node =>
    let (value, _) ← (Expansion.value anchors depthLimit node).run (aliasFactor * node.marks)
    return value

end BackupWatch.Yaml
