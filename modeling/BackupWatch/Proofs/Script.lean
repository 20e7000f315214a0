import BackupWatch.Proofs.Act

/-!
Scripted calls. A script says of each call, counted from zero, how long it takes and what it
answers; its act makes the next call and keeps a record of when each call began and ended.
-/

namespace BackupWatch

variable {κ α : Type}

/-- When a call began and when it ended, in milliseconds. -/
structure Script.Span where
  began : Nat
  ended : Nat
  deriving DecidableEq, Repr, Inhabited

structure Script.Line (α : Type) where
  /-- Milliseconds. -/
  takes : Nat
  answer : Except Error α

abbrev Script (α : Type) := Nat → Script.Line α

abbrev Script.Record := List Script.Span

namespace Script

def act (script : Script α) : Act κ Record α := fun s =>
  let line := script s.own.length
  let ended := s.clock + line.takes
  (line.answer.mapError .error, { s with clock := ended, own := s.own ++ [⟨s.clock, ended⟩] })

def stage (s : Session κ Record) (clock : Nat) (calls : Record) : Session κ Record :=
  { s with clock, own := calls }

theorem stage_self {s : Session κ Record} (h : s.own = []) : stage s s.clock [] = s := by
  rw [← h]
  rfl

def calls (script : Script α) (began : Nat → Nat) (n : Nat) : Record :=
  (List.range n).map fun i => ⟨began i, began i + (script i).takes⟩

theorem length_calls (script : Script α) (began : Nat → Nat) (n : Nat) :
    (script.calls began n).length = n := by
  rw [calls, List.length_map, List.length_range]

theorem calls_succ (script : Script α) (began : Nat → Nat) (n : Nat) :
    script.calls began (n + 1) =
      script.calls began n ++ [⟨began n, began n + (script n).takes⟩] := by
  rw [calls, List.range_succ, List.map_append]
  rfl

/-- Each call of the script is recorded with the time that it takes. -/
theorem run_act (script : Script α) (began : Nat → Nat) (s : Session κ Record) (i : Nat) :
    script.act (stage s (began i) (script.calls began i)) =
      ((script i).answer.mapError .error,
        stage s (began i + (script i).takes) (script.calls began (i + 1))) := by
  have hcount := script.length_calls began i
  rw [calls_succ]
  generalize script.calls began i = earlier at hcount ⊢
  subst hcount
  rfl

def start : Session Unit Record := ⟨0, fun _ => 0.0, (), []⟩

end Script
end BackupWatch
