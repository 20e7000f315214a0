import BackupWatch.Error
import BackupWatch.Fault

/-!
Sessions: what an act of the tracker works on. There is a clock that only waiting moves, a
supply of random numbers, the cluster behind its client, and a state of the act's own. An act
keeps what it has changed also when it fails.
-/

namespace BackupWatch

open Time

structure Session (κ σ : Type) where
  /-- Milliseconds since the session began. -/
  clock : Nat
  /-- Random numbers to come; see `DiceInRange`. -/
  dice : Nat → Float
  cluster : κ
  own : σ

/-- Chance says numbers between -1 and 1 only. No act gives a session other numbers than are left of
those that it began with. -/
def Session.DiceInRange (s : Session κ σ) : Prop := ∀ n, -1.0 ≤ s.dice n ∧ s.dice n ≤ 1.0

/-- Why an act ended without a result. -/
inductive Failure
  | error (cause : Error)
  | fault (cause : Fault)
  deriving DecidableEq, Repr, Inhabited

/-- An act on a session: a result or a failure, and the session afterwards in both cases. -/
abbrev Act (κ σ α : Type) := ExceptT Failure (StateM (Session κ σ)) α

namespace Act

def ofExcept (result : Except Error α) : Act κ σ α :=
  match result with
  | .ok a => pure a
  | .error e => throw (.error e)

def ofFault (result : Except Fault α) : Act κ σ α :=
  match result with
  | .ok a => pure a
  | .error f => throw (.fault f)

def fail (e : Error) : Act κ σ α := throw (.error e)

def clock : Act κ σ Nat := do return (← get).clock

def own : Act κ σ σ := do return (← get).own

def setOwn (value : σ) : Act κ σ Unit := modify fun s => { s with own := value }

/-- The longest single wait: thirty years of 365 days. -/
def longestSleep : Duration := .ofSeconds 946080000

/-- Waits; the clock stops at the first whole millisecond that is late enough. -/
def sleep (d : Duration) : Act κ σ Unit :=
  modify fun s => { s with clock := s.clock + (d.min longestSleep).ceilMillis }

/-- Takes the next random number. -/
def roll : Act κ σ Float := do
  let s ← get
  set { s with dice := fun n => s.dice (n + 1) }
  return s.dice 0

/-- Lets an act work on a part of the own state. -/
def within (part : σ → τ) (update : τ → σ → σ) (act : Act κ τ α) : Act κ σ α := fun s =>
  let (result, inner) := act { s with own := part s.own }
  (result, { inner with own := update inner.own s.own })

/-- Runs an act on a state of its own, and gives that state too. -/
def runOn (state : τ) (act : Act κ τ α) : Act κ σ (α × τ) := fun s =>
  let (result, inner) := act { s with own := state }
  (result.map fun a => (a, inner.own), { inner with own := s.own })

/-- Catches the error of an act, if it is no fault. -/
def attempt (act : Act κ σ α) : Act κ σ (Except Error α) := fun s =>
  match act s with
  | (.ok a, later) => (.ok (.ok a), later)
  | (.error (.error e), later) => (.ok (.error e), later)
  | (.error (.fault f), later) => (.error (.fault f), later)

end Act
end BackupWatch
