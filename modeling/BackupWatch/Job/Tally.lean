import BackupWatch.Job.Context
import BackupWatch.Watch.Leftovers

/-!
Tallies: how many relevant objects of a listing are complete and how many are still to come. A
relevant object that has failed ends the count with an error.
-/

namespace BackupWatch.Job

open Watch

structure Tally where
  relevant : Nat
  completed : Nat
  pending : Nat
  deriving DecidableEq, Repr, Inhabited

/-- Contents count only if they refer to a namespace of the backup. -/
def inScope (ctx : Context) (o : Object) : Bool :=
  match o.kind.scope with
  | .cluster => o.referenceNamespace.any ctx.includes
  | .includedNamespaces => true
  | .backupNamespace => true

/-- Objects that count towards the backup: of the kind, no leftovers, in scope, and its own. -/
def isRelevant (kind : Kind) (ctx : Context) (leftovers : Leftovers) (o : Object) : Bool :=
  o.kind == kind && !leftovers.contains kind o.identity && inScope ctx o && o.belongsTo ctx.backup

def failure (o : Object) : Error :=
  .jobFailed o.kind o.identity.text o.phase.text o.message

namespace Tally

/-- Counts one relevant object. -/
def add (t : Tally) (o : Object) : Except Error Tally :=
  match o.phase with
  | .failed => .error (failure o)
  | .completed => .ok { t with relevant := t.relevant + 1, completed := t.completed + 1 }
  | .new => .ok { t with relevant := t.relevant + 1, pending := t.pending + 1 }
  | .inProgress => .ok { t with relevant := t.relevant + 1, pending := t.pending + 1 }

def step (kind : Kind) (ctx : Context) (leftovers : Leftovers) (t : Tally) (o : Object) :
    Except Error Tally :=
  if isRelevant kind ctx leftovers o then t.add o else .ok t

end Tally

/-- Counts a listing, up to the first relevant object that has failed. -/
def classify (kind : Kind) (ctx : Context) (leftovers : Leftovers) (listing : List Object) :
    Except Error Tally :=
  listing.foldlM (Tally.step kind ctx leftovers) ⟨0, 0, 0⟩

end BackupWatch.Job
