import BackupWatch.Watch.Object

/-!
Leftovers: objects that were complete when their kind was listed for the first time. They stem
from an earlier attempt at the backup and never count towards this one.
-/

namespace BackupWatch.Watch

/-- For each kind that has been listed, the identities of its leftovers, each once. -/
structure Leftovers where
  entries : PerKind (Option (List Identity))
  deriving DecidableEq, Repr

namespace Leftovers

def empty : Leftovers := ⟨.same none⟩

def isBuilt (l : Leftovers) (kind : Kind) : Bool := (l.entries.get kind).isSome

def contains (l : Leftovers) (kind : Kind) (id : Identity) : Bool :=
  match l.entries.get kind with
  | some ids => ids.contains id
  | none => false

/-- How many there are; none for a kind that has not been listed. -/
def count? (l : Leftovers) (kind : Kind) : Option Nat := (l.entries.get kind).map List.length

/-- The identities of the completed objects of a kind. -/
def completedIn (kind : Kind) (listing : List Object) : List Identity :=
  ((listing.filter fun o => o.kind = kind ∧ o.phase = .completed).map Object.identity).eraseDups

/-- Records the first listing of a kind; later ones change nothing. -/
def record (l : Leftovers) (kind : Kind) (listing : List Object) : Leftovers :=
  if l.isBuilt kind then l else ⟨l.entries.set kind (some (completedIn kind listing))⟩

theorem record_of_isBuilt {l : Leftovers} {kind : Kind} (h : l.isBuilt kind = true)
    (listing : List Object) : l.record kind listing = l := by
  simp [record, h]

theorem isBuilt_record_self (l : Leftovers) (kind : Kind) (listing : List Object) :
    (l.record kind listing).isBuilt kind = true := by
  unfold record
  split
  · assumption
  · simp [isBuilt]

end Leftovers
end BackupWatch.Watch
