import BackupWatch.Config.Basic
import BackupWatch.Proofs.Raise

/-!
Accepted configurations. What `Config.ofSettings` accepts is given by the values of the four keys:
a pace of no seconds is refused, minutes that cannot be counted in seconds stop the program, and
every other time-out that can be written is taken as it is, also one beyond the end of the clock, at
which a poll then stops the program.
-/

namespace BackupWatch

open Act Time

variable {κ σ α : Type}

theorem ofSeconds_pos {n : Nat} (h : 0 < n) : 0 < (Duration.ofSeconds n).nanoseconds :=
  Nat.mul_pos h (by decide)

namespace Config

theorem applyKey_eq_map {settings : Settings} {key : Key} {read : String → Except Numeral.Fault α}
    {change : Config → α → Except Fault Config} {c : Config} {set : Option α → Config}
    (hnone : set none = c) (hsome : ∀ a, change c a = .ok (set (some a))) :
    applyKey settings key read change c = (value? settings key read).map set := by
  unfold applyKey
  rcases value? settings key read with fault | _ | a
  · rfl
  · exact congrArg Except.ok hnone.symm
  · exact hsome a

/-- Overlaying is a fold of the changes that stops at the first fault. -/
theorem overlaid_eq_foldlM (c : Config) (settings : Settings) :
    c.overlaid settings = (changes settings).foldlM (fun c change => change c) c := by
  unfold overlaid apply
  generalize changes settings = steps
  induction steps generalizing c with
  | nil => rfl
  | cons change rest ih =>
    rw [List.foldlM_cons, applyEach]
    cases change c with
    | error => rfl
    | ok next => exact ih next

theorem overlaid_eq_ok_iff {settings : Settings} {c next : Config} :
    c.overlaid settings = .ok next ↔ c.apply settings = (none, next) := by
  unfold overlaid
  rcases c.apply settings with ⟨_ | fault, later⟩ <;> simp

/-- The values of the four keys, as far as they are there. -/
structure Values where
  minutes : Option Nat
  pace : Option Nat
  propagation : Option Nat
  migration : Option Bool

namespace Values

def config (v : Values) : Config where
  upload := ⟨(v.minutes.map fun n => .ofSeconds (n * 60)).getD (.ofSeconds 1800),
    (v.pace.map .ofSeconds).getD (.ofSeconds 10)⟩
  propagation := ⟨(v.propagation.map .ofSeconds).getD (.ofSeconds 120), .ofSeconds 2⟩
  retry := .standard
  migration := v.migration.getD false

def onto (v : Values) (c : Config) : Config where
  upload := ⟨(v.minutes.map fun n => .ofSeconds (n * 60)).getD c.upload.timeout,
    (v.pace.map .ofSeconds).getD c.upload.pace⟩
  propagation := ⟨(v.propagation.map .ofSeconds).getD c.propagation.timeout, c.propagation.pace⟩
  retry := c.retry
  migration := v.migration.getD c.migration

section Guarded

variable {good : Nat → Prop} [DecidablePred good] {fault : Fault} {value kept : Option Nat}

/-- A value that is not good is refused. -/
def guarded (good : Nat → Prop) [DecidablePred good] (fault : Fault) (value : Option Nat) :
    Except Fault (Option Nat) :=
  if ∀ n ∈ value, good n then .ok value else .error fault

theorem guarded_none : guarded good fault none = .ok none := if_pos fun _ h => nomatch h

theorem guarded_some (n : Nat) :
    guarded good fault (some n) = if good n then .ok (some n) else .error fault := by
  simp only [guarded, Option.mem_def, Option.some.injEq, forall_eq']

/-- A guard lets a value through unchanged, if it is good. -/
theorem guarded_eq_ok_iff :
    guarded good fault value = .ok kept ↔ value = kept ∧ ∀ n ∈ kept, good n := by
  unfold guarded
  split
  · next hgood => exact ⟨fun h => Except.ok.inj h ▸ ⟨rfl, hgood⟩, fun h => congrArg _ h.1⟩
  · next hbad => exact ⟨fun h => (nomatch h), fun h => absurd (h.1 ▸ h.2) hbad⟩

end Guarded

def timed : Option Nat → Except Fault (Option Nat) :=
  guarded (· * 60 < Numeral.limit) .tooManyMinutes

def paced : Option Nat → Except Fault (Option Nat) := guarded (· ≠ 0) .paceTooShort

def read (settings : Settings) : Except Fault Values := do
  let minutes ← value? settings .uploadTimeout Numeral.unsigned >>= timed
  let pace ← value? settings .uploadPace Numeral.unsigned >>= paced
  let propagation ← value? settings .propagationTimeout Numeral.unsigned
  let migration ← value? settings .migration Numeral.truthValue
  return ⟨minutes, pace, propagation, migration⟩

/-- The values can be read off the settings, and are accepted. -/
structure Written (v : Values) (settings : Settings) : Prop where
  minutes : value? settings .uploadTimeout Numeral.unsigned = .ok v.minutes
  pace : value? settings .uploadPace Numeral.unsigned = .ok v.pace
  propagation : value? settings .propagationTimeout Numeral.unsigned = .ok v.propagation
  migration : value? settings .migration Numeral.truthValue = .ok v.migration
  timed : ∀ n ∈ v.minutes, n * 60 < Numeral.limit
  paced : ∀ n ∈ v.pace, n ≠ 0

/-- Every accepted pace is a second at least. -/
theorem Written.pace_pos {v : Values} {settings : Settings} (h : v.Written settings) :
    0 < v.config.upload.pace.nanoseconds ∧ 0 < v.config.propagation.pace.nanoseconds := by
  refine ⟨?_, ofSeconds_pos (by decide)⟩
  unfold config
  cases hpace : v.pace with
  | none => exact ofSeconds_pos (by decide)
  | some n =>
    exact ofSeconds_pos (Nat.pos_of_ne_zero (h.paced n hpace))

end Values

/-- What can be read was written, and nothing else can. -/
theorem Values.read_eq_ok_iff {settings : Settings} {v : Values} :
    read settings = .ok v ↔ v.Written settings := by
  simp only [read, bind_eq_ok_iff]
  constructor
  · rintro ⟨_, ⟨minutes, hminutes, hcounted⟩, _, ⟨pace, hpace, hkept⟩, propagation, hpropagation,
      migration, hmigration, heq⟩
    cases heq
    obtain ⟨rfl, htimed⟩ := guarded_eq_ok_iff.mp hcounted
    obtain ⟨rfl, hpaced⟩ := guarded_eq_ok_iff.mp hkept
    exact ⟨hminutes, hpace, hpropagation, hmigration, htimed, hpaced⟩
  · intro h
    exact ⟨_, ⟨_, h.minutes, guarded_eq_ok_iff.mpr ⟨rfl, h.timed⟩⟩, _,
      ⟨_, h.pace, guarded_eq_ok_iff.mpr ⟨rfl, h.paced⟩⟩, _, h.propagation, _, h.migration, rfl⟩

/-- A key whose change refuses some numbers is read with a guard, and set without one. -/
theorem applyKey_eq_guarded {settings : Settings} {key : Key} {good : Nat → Prop}
    [DecidablePred good] {fault : Fault} {change : Config → Nat → Except Fault Config} {c : Config}
    {set : Option Nat → Config} (hnone : set none = c)
    (hsome : ∀ n, change c n = if good n then .ok (set (some n)) else .error fault) :
    applyKey settings key Numeral.unsigned change c =
      (value? settings key Numeral.unsigned >>= Values.guarded good fault).map set := by
  unfold applyKey
  rcases value? settings key Numeral.unsigned with fault | _ | n
  · rfl
  · change .ok c = (Values.guarded good fault none).map set
    rw [Values.guarded_none, ← hnone]
    rfl
  · change change c n = (Values.guarded good fault (some n)).map set
    rw [Values.guarded_some, hsome n]
    split <;> rfl

/-- Settings are read without a look at the configuration that they are laid on. -/
theorem overlaid_eq (c : Config) (settings : Settings) :
    c.overlaid settings = (Values.read settings).map (·.onto c) := by
  have hminutes (c : Config) :
      applyKey settings .uploadTimeout Numeral.unsigned setUploadTimeout c =
        (value? settings .uploadTimeout Numeral.unsigned >>= Values.timed).map
          fun minutes => Values.onto ⟨minutes, none, none, none⟩ c :=
    applyKey_eq_guarded rfl fun _ => rfl
  have hpace (c : Config) :
      applyKey settings .uploadPace Numeral.unsigned setUploadPace c =
        (value? settings .uploadPace Numeral.unsigned >>= Values.paced).map
          fun pace => Values.onto ⟨none, pace, none, none⟩ c :=
    applyKey_eq_guarded rfl fun _ => (ite_not ..).symm
  have hpropagation (c : Config) :
      applyKey settings .propagationTimeout Numeral.unsigned setPropagationTimeout c =
        (value? settings .propagationTimeout Numeral.unsigned).map
          fun propagation => Values.onto ⟨none, none, propagation, none⟩ c :=
    applyKey_eq_map rfl fun _ => rfl
  have hmigration (c : Config) :
      applyKey settings .migration Numeral.truthValue setMigration c =
        (value? settings .migration Numeral.truthValue).map
          fun migration => Values.onto ⟨none, none, none, migration⟩ c :=
    applyKey_eq_map rfl fun _ => rfl
  rw [overlaid_eq_foldlM, Values.read]
  simp only [changes, List.foldlM_cons, List.foldlM_nil, hminutes, hpace, hpropagation, hmigration]
  generalize value? settings .uploadTimeout Numeral.unsigned >>= Values.timed = minutes,
    value? settings .uploadPace Numeral.unsigned >>= Values.paced = pace,
    value? settings .propagationTimeout Numeral.unsigned = propagation,
    value? settings .migration Numeral.truthValue = migration
  rcases minutes with fault | minutes
  · rfl
  rcases pace with fault | pace
  · rfl
  rcases propagation with fault | propagation
  · rfl
  cases migration <;> rfl

/-- Settings in which values are written give the configuration that the values make. -/
theorem ofSettings_of_written {settings : Settings} {v : Values} (h : v.Written settings) :
    ofSettings settings = .ok v.config := by
  rw [ofSettings, overlaid_eq, Values.read_eq_ok_iff.mpr h]
  rfl

/-- What is accepted was written, and nothing else is accepted. -/
theorem ofSettings_eq_ok_iff {settings : Settings} {c : Config} :
    ofSettings settings = .ok c ↔ ∃ v : Values, v.Written settings ∧ c = v.config := by
  rw [ofSettings, overlaid_eq]
  constructor
  · intro h
    rcases hread : Values.read settings with fault | v
    · rw [hread] at h
      cases h
    · rw [hread] at h
      cases h
      exact ⟨v, Values.read_eq_ok_iff.mp hread, rfl⟩
  · rintro ⟨v, hwritten, rfl⟩
    rw [Values.read_eq_ok_iff.mpr hwritten]
    rfl

end Config

namespace Poll

/-- A poll fails for what its looks fail for, for a used-up counter, or with an error. -/
theorem raises_loop (settings : Settings) (operation : String) {look : Act κ σ Status}
    {ex : Failure → Session κ σ → Prop} (hlook : Raises look ex)
    (hattempts : ∀ s, ex (.fault .attemptsOutOfRange) s) (herror : ∀ e s, ex (.error e) s)
    (started left attempts : Nat) :
    Raises (loop settings operation look started left attempts) ex := by
  induction left generalizing attempts with
  | zero => exact raises_throw hattempts
  | succ left ih =>
    unfold loop
    refine raises_bind hlook fun status => raises_bind raises_clock fun now => ?_
    refine raises_ite (raises_pure _) (raises_ite (raises_throw fun s => herror _ s) ?_)
    exact raises_bind (raises_sleep _) fun _ => ih (attempts + 1)

/-- A poll stops the program at its start if its deadline lies beyond the end of the clock, and for
this reason in no other case. -/
theorem run_overdue_iff (settings : Settings) (operation : String) {look : Act κ σ Status}
    (hlook : Raises look fun f _ => f ≠ .fault .deadlineOutOfRange) (s : Session κ σ) :
    (run settings operation look s).1 = .error (.fault .deadlineOutOfRange) ↔
      (Duration.ofSeconds clockEnd).nanoseconds ≤ deadline settings s.clock := by
  rw [run_eq]
  split
  · next hlate => exact ⟨fun _ => hlate, fun _ => rfl⟩
  · next hintime =>
    have hloop := raises_loop settings operation hlook (fun _ => by simp) (fun _ _ => by simp)
      s.clock attemptLimit 0 s
    exact ⟨fun hfault => absurd rfl (hloop _ hfault), fun hlate => absurd hlate hintime⟩

end Poll
end BackupWatch
