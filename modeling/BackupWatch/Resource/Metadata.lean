import BackupWatch.Json.Reading
import BackupWatch.Time.Stamp

/-!
What every stored object carries beside its specification. Only a few of the fields are used,
but all that are known must have their shape.
-/

namespace BackupWatch.Resource

open Json

structure Metadata where
  name : Option String
  generateName : Option String
  ns : Option String
  resourceVersion : Option String
  labels : Option TextMap
  annotations : Option TextMap
  deriving Repr, Inhabited, DecidableEq

namespace Metadata

def readStamp : Reader Time.Stamp := fun value => (readText value).bind Time.Stamp.ofText?

/-- The shape of a reference to an owner. -/
def checkOwner : Reader Unit := fun value => do
  let fields ← readMembers value
  let _ ← fields.optional "apiVersion" readText
  let _ ← fields.optional "blockOwnerDeletion" readBool
  let _ ← fields.optional "controller" readBool
  let _ ← fields.optional "kind" readText
  let _ ← fields.optional "name" readText
  let _ ← fields.optional "uid" readText

/-- The shape of a note about the fields that a manager has set. -/
def checkManager : Reader Unit := fun value => do
  let fields ← readMembers value
  let _ ← fields.optional "apiVersion" readText
  let _ ← fields.optional "fieldsType" readText
  let _ ← fields.optional "manager" readText
  let _ ← fields.optional "operation" readText
  let _ ← fields.optional "subresource" readText
  let _ ← fields.optional "time" readStamp

/-- The shapes of the fields that are not used. -/
def checkOthers (fields : Members) : Option Unit := do
  let _ ← fields.optional "creationTimestamp" readStamp
  let _ ← fields.optional "deletionGracePeriodSeconds" readInteger
  let _ ← fields.optional "deletionTimestamp" readStamp
  let _ ← fields.optional "finalizers" (readArray readText)
  let _ ← fields.optional "generation" readInteger
  let _ ← fields.optional "managedFields" (readArray checkManager)
  let _ ← fields.optional "ownerReferences" (readArray checkOwner)
  let _ ← fields.optional "selfLink" readText
  let _ ← fields.optional "uid" readText

def read (value : Json) : Option Metadata := do
  let fields ← readMembers value
  checkOthers fields
  return {
    name := ← fields.optional "name" readText
    generateName := ← fields.optional "generateName" readText
    ns := ← fields.optional "namespace" readText
    resourceVersion := ← fields.optional "resourceVersion" readText
    labels := ← fields.optional "labels" readTextMap
    annotations := ← fields.optional "annotations" readTextMap }

/-- The name, else the stem that names are generated from, else nothing. -/
def shownName (m : Metadata) : String := (m.name.or m.generateName).getD ""

end Metadata

/-- An object with a specification. -/
structure Stored (Spec : Type) where
  metadata : Metadata
  spec : Spec
  deriving Repr, DecidableEq

/-- An object with a specification and a status that its controller may not have written yet. -/
structure Reported (Spec Status : Type) extends Stored Spec where
  status : Option Status
  deriving Repr, DecidableEq

def Stored.ofFields (readSpec : Reader Spec) (fields : Members) : Option (Stored Spec) := do
  return {
    metadata := ← fields.required "metadata" Metadata.read
    spec := ← fields.required "spec" readSpec }

def Stored.read (readSpec : Reader Spec) (value : Json) : Option (Stored Spec) := do
  Stored.ofFields readSpec (← readFullRecord ["metadata", "spec"] value)

def Reported.read (readSpec : Reader Spec) (readStatus : Reader Status) (value : Json) :
    Option (Reported Spec Status) := do
  let fields ← readFullRecord ["metadata", "spec", "status"] value
  return {
    toStored := ← Stored.ofFields readSpec fields
    status := ← fields.optional "status" readStatus }

end BackupWatch.Resource
