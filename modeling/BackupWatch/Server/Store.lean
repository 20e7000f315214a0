import BackupWatch.Json.Basic
import BackupWatch.Numeral.Unsigned
import BackupWatch.Text.Lowercase

/-!
The store of an API server: raw objects in the order in which they were put, each found by its
resource, namespace and name.
-/

namespace BackupWatch.Server

/-- An object without a name is not one whose name is empty. -/
structure Key where
  resource : String
  ns : Option String
  name : Option String
  deriving DecidableEq, Repr, Inhabited

/-- The resource of a raw object is its kind in lower case, in the plural. -/
def resourceOf (object : Json) : String :=
  Text.lowercase (((object.member? "kind").bind Json.text?).getD "") ++ "s"

def metadataText (object : Json) (field : String) : Option String :=
  ((object.member? "metadata").bind fun m => m.member? field).bind Json.text?

def keyOf (object : Json) : Key where
  resource := resourceOf object
  ns := metadataText object "namespace"
  name := metadataText object "name"

/-- The raw value of the pause field; null if there is none. -/
def pausedUntil (object : Json) : Json :=
  ((object.member? "spec").bind fun spec => spec.member? "pausedUntil").getD .null

def versionOf (object : Json) : Option String := metadataText object "resourceVersion"

/-- Counts a decimal version up; other versions stay as they are. -/
def bumpVersion (object : Json) : Json :=
  match versionOf object with
  | none => object
  | some version =>
    match Numeral.unsigned version with
    | .error _ => object
    | .ok n =>
      let metadata := (object.member? "metadata").getD .null
      let next : Json := .string (toString (n + 1))
      object.setMember "metadata" (metadata.setMember "resourceVersion" next)

/-- Sets or removes the pause field, which makes a new version. -/
def setPause (value : Option String) (object : Json) : Json :=
  let spec := (object.member? "spec").getD .null
  let changed :=
    match value with
    | some v => object.setMember "spec" (spec.setMember "pausedUntil" (.string v))
    | none =>
      match object.member? "spec" with
      | some spec => object.setMember "spec" (spec.eraseMember "pausedUntil")
      | none => object
  bumpVersion changed

abbrev Store := List Json

namespace Store

def find? (store : Store) (key : Key) : Option Json := List.find? (fun o => keyOf o == key) store

def erase (store : Store) (key : Key) : Store := store.filter fun o => keyOf o != key

/-- An object put again moves to the end. -/
def put (store : Store) (object : Json) : Store := store.erase (keyOf object) ++ [object]

def update (store : Store) (key : Key) (change : Json → Json) : Store :=
  store.map fun o => if keyOf o = key then change o else o

/-- The objects of a resource in a namespace, or everywhere. -/
def list (store : Store) (resource : String) (ns : Option String) : List Json :=
  store.filter fun o =>
    resourceOf o == resource && ns.all fun n => (keyOf o).ns == some n

end Store
end BackupWatch.Server
