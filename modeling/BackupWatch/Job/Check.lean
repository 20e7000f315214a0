import BackupWatch.Cluster.Client
import BackupWatch.Job.Tally

/-!
Checks: one listing of a kind, counted. A kind has started once a relevant object was seen, and
has finished when the expected number is complete, when its objects are gone again, or, where
that is allowed, when there never were any. A finished kind is not listed again.
-/

namespace BackupWatch.Job

open Cluster Watch

structure Completion where
  started : Bool
  finished : Bool
  deriving DecidableEq, Repr, Inhabited

/-- What a job remembers between checks. -/
structure JobState where
  leftovers : Leftovers
  completion : PerKind Completion
  deriving DecidableEq, Repr

def JobState.fresh : JobState := ⟨.empty, .same ⟨false, false⟩⟩

inductive FinishReason
  /-- The expected number of objects is complete. -/
  | threshold
  /-- No relevant object was ever seen. -/
  | notParticipating
  /-- The relevant objects are gone again. -/
  | vanished
  /-- An earlier check found the kind finished. -/
  | cached
  deriving DecidableEq, Repr, Inhabited

structure Outcome where
  kind : Kind
  started : Bool
  finished : Bool
  completed : Nat
  pending : Nat
  expected : Nat
  reason : Option FinishReason
  deriving DecidableEq, Repr, Inhabited

def Outcome.text (o : Outcome) : String :=
  o.kind.text ++ ": " ++ toString o.completed ++ "/" ++ toString o.expected ++ " completed, "
    ++ toString o.pending ++ " pending, started=" ++ toString o.started
    ++ ", finished=" ++ toString o.finished

/-- A kind to check, and whether it may finish without ever having had an object. -/
structure Checker where
  kind : Kind
  mayStayEmpty : Bool
  deriving DecidableEq, Repr, Inhabited

variable {κ σ : Type}

/-- The most namespaces whose requests are prepared together. -/
def jointLimit : Nat := 30

/-- Lists a kind in some namespaces, one after the other. Requests that are prepared together are
only sent if all of them can be made. -/
def listEach (client : Client κ) (kind : Kind) (names : List String) :
    Act κ σ (List Object) := do
  let sendable := names.all fun ns => client.accepts (.list kind (some ns))
  if names.length ≤ jointLimit && !sendable then Act.fail .invalidRequest
  let listings ← names.mapM fun ns => client.ask (.list kind (some ns))
  return listings.flatten

/-- Lists a kind where its scope says. -/
def listInScope (client : Client κ) (ctx : Context) (kind : Kind) : Act κ σ (List Object) :=
  match kind.scope with
  | .cluster => client.ask (.list kind none)
  | .backupNamespace => client.ask (.list kind (some ctx.backupNamespace))
  | .includedNamespaces => listEach client kind ctx.included.names

def recordLeftovers (kind : Kind) (listing : List Object) : Act κ JobState Unit := do
  let job ← Act.own
  Act.setOwn { job with leftovers := job.leftovers.record kind listing }

/-- Lists a kind for its leftovers, unless that has been done. -/
def seed (client : Client κ) (ctx : Context) (kind : Kind) : Act κ JobState Unit := do
  if (← Act.own).leftovers.isBuilt kind then return
  recordLeftovers kind (← listInScope client ctx kind)

/-- What a count makes of a kind: whether it has started, and why it is finished, if it is. -/
def judge (started mayStayEmpty : Bool) (expected : Nat) (t : Tally) :
    Bool × Option FinishReason :=
  if t.relevant = 0 then
    (started, if started then some .vanished
      else if mayStayEmpty then some .notParticipating else none)
  else (true, if t.completed = expected then some .threshold else none)

def Outcome.cached (ctx : Context) (kind : Kind) (current : Completion) : Outcome :=
  ⟨kind, current.started, true, ctx.expectedUnits, 0, ctx.expectedUnits, some .cached⟩

def check (client : Client κ) (ctx : Context) (checker : Checker) : Act κ JobState Outcome := do
  let kind := checker.kind
  let current := (← Act.own).completion.get kind
  if current.finished then return .cached ctx kind current
  let listing ← listInScope client ctx kind
  recordLeftovers kind listing
  let job ← Act.own
  let tally ← Act.ofExcept (classify kind ctx job.leftovers listing)
  let (started, reason) := judge current.started checker.mayStayEmpty ctx.expectedUnits tally
  let finished := reason.isSome
  Act.setOwn { job with completion := job.completion.set kind ⟨started, finished⟩ }
  return ⟨kind, started, finished, tally.completed, tally.pending, ctx.expectedUnits, reason⟩

end BackupWatch.Job
