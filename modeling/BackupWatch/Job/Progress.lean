import BackupWatch.Job.Chain
import BackupWatch.Job.Check
import BackupWatch.Poll

/-!
Progress along a chain. A stage runs only after the one before it has finished, and may finish
without objects only if the stage before it never had any. A pass takes each stage as it finds
it; waiting polls each stage until it has finished. The leftovers of all stages are recorded
before the first check.
-/

namespace BackupWatch.Job

open Cluster Watch

structure Progress where
  chain : Chain
  /-- All stages have finished. -/
  finished : Bool
  job : JobState
  deriving DecidableEq, Repr

namespace Progress

variable {κ : Type}

def fresh (chain : Chain) : Progress := ⟨chain, false, .fresh⟩

/-- Lets an act on the job run as an act on the progress. -/
def onJob (act : Act κ JobState α) : Act κ Progress α :=
  Act.within Progress.job (fun job p => { p with job }) act

/-- Records the leftovers of every stage that has none recorded yet. -/
def seedAll (client : Client κ) (ctx : Context) : Act κ Progress Unit := do
  (← Act.own).chain.stages.forM fun kind => onJob (seed client ctx kind)

/-- The checker for a stage behind another. -/
def stageChecker (job : JobState) (previous : Option Kind) (kind : Kind) : Checker where
  kind
  mayStayEmpty := previous.all fun before => !(job.completion.get before).started

def markFinished : Act κ Progress Unit := do
  Act.setOwn { ← Act.own with finished := true }

/-- Checks the stages in order, up to the first that has not finished. -/
def passFrom (client : Client κ) (ctx : Context) (previous : Option Kind) :
    List Kind → Act κ Progress (List Outcome)
  | [] => do
    markFinished
    return []
  | kind :: later => do
    let checker := stageChecker (← Act.own).job previous kind
    let outcome ← onJob (check client ctx checker)
    if outcome.finished then
      return outcome :: (← passFrom client ctx (some kind) later)
    else return [outcome]

/-- One pass, which does not wait: the outcomes of the stages that ran. -/
def pass (client : Client κ) (ctx : Context) : Act κ Progress (List Outcome) := do
  let p ← Act.own
  if p.finished then return []
  seedAll client ctx
  passFrom client ctx none p.chain.stages

/-- One look at a stage under a poll. -/
def look (client : Client κ) (ctx : Context) (checker : Checker) : Act κ Progress Poll.Status := do
  let outcome ← onJob (check client ctx checker)
  return ⟨outcome.finished, outcome.text⟩

def operation (ctx : Context) (kind : Kind) : String :=
  kind.text ++ " completion for backup " ++ ctx.backup

def waitFrom (client : Client κ) (ctx : Context) (settings : Poll.Settings)
    (previous : Option Kind) : List Kind → Act κ Progress Unit
  | [] => markFinished
  | kind :: later => do
    let checker := stageChecker (← Act.own).job previous kind
    let _ ← Poll.run settings (operation ctx kind) (look client ctx checker)
    waitFrom client ctx settings (some kind) later

/-- Waits for each stage in turn, each with a deadline of its own. -/
def wait (client : Client κ) (ctx : Context) (settings : Poll.Settings) : Act κ Progress Unit := do
  let p ← Act.own
  if p.finished then return
  seedAll client ctx
  waitFrom client ctx settings none p.chain.stages

end Progress
end BackupWatch.Job
