import BackupWatch.Proofs.Chronicle

/-!
Time and chance that do not matter. Acts on a client whose answers hang on its own state alone
give the same results at every time; a poll that is paced counts its looks within bounds.
-/

namespace BackupWatch

open Cluster Time

variable {κ σ τ α β : Type}

/-- Two sessions that differ in time and chance at most. -/
structure Session.Alike (s t : Session κ σ) : Prop where
  own : s.own = t.own
  cluster : s.cluster = t.cluster

theorem Session.Alike.pass {s t : Session κ σ} (h : s.Alike t) (millis : Nat) :
    (s.pass millis).Alike t := ⟨h.own, h.cluster⟩

/-- A client whose answers hang on its state alone. -/
structure Cluster.Client.Timeless (client : Client κ) : Prop where
  result : ∀ request clock clock' cluster,
    (client.reply request clock cluster).result = (client.reply request clock' cluster).result
  cluster : ∀ request clock clock' cluster,
    (client.reply request clock cluster).cluster = (client.reply request clock' cluster).cluster

namespace Act

def Timeless (act : Act κ σ α) : Prop :=
  ∀ s t : Session κ σ, s.Alike t → (act s).1 = (act t).1 ∧ (act s).2.Alike (act t).2

theorem timeless_pure (a : α) : Timeless (pure a : Act κ σ α) := fun _ _ h => ⟨rfl, h⟩

theorem timeless_throw (f : Failure) : Timeless (throw f : Act κ σ α) := fun _ _ h => ⟨rfl, h⟩

theorem timeless_own : Timeless (own : Act κ σ σ) :=
  fun _ _ h => ⟨congrArg Except.ok h.own, h⟩

theorem timeless_setOwn (value : σ) : Timeless (setOwn value : Act κ σ Unit) :=
  fun _ _ h => ⟨rfl, rfl, h.cluster⟩

theorem timeless_ask {client : Client κ} (hclient : client.Timeless) (request : Request) :
    Timeless (client.ask request : Act κ σ request.Answer) := by
  intro s t h
  have hresult := hclient.result request s.clock t.clock s.cluster
  have hcluster := hclient.cluster request s.clock t.clock s.cluster
  rw [h.cluster] at hresult hcluster
  rw [Client.run_ask, Client.run_ask]
  refine ⟨?_, h.own, ?_⟩
  · simp only [h.cluster, hresult]
  · simp only [Client.after, h.cluster, hcluster]

/-- Two acts in a row do not depend on the clock if neither does. -/
theorem timeless_bind {x : Act κ σ α} {f : α → Act κ σ β} (hx : Timeless x)
    (hf : ∀ a, Timeless (f a)) : Timeless (x >>= f) := by
  intro s t h
  obtain ⟨hresult, hlater⟩ := hx s t h
  rw [run_bind, run_bind]
  rcases hs : x s with ⟨e | a, later⟩
  · rcases ht : x t with ⟨e' | a', later'⟩
    · rw [hs, ht] at hresult hlater
      cases hresult
      exact ⟨rfl, hlater⟩
    · rw [hs, ht] at hresult
      cases hresult
  · rcases ht : x t with ⟨e' | a', later'⟩
    · rw [hs, ht] at hresult
      cases hresult
    · rw [hs, ht] at hresult hlater
      cases hresult
      exact hf a later later' hlater

theorem timeless_ite {c : Prop} [Decidable c] {x y : Act κ σ α} (hx : Timeless x)
    (hy : Timeless y) : Timeless (if c then x else y) := by
  split
  · exact hx
  · exact hy

theorem timeless_ofExcept (result : Except Error α) :
    Timeless (ofExcept result : Act κ σ α) := by
  cases result with
  | ok a => exact timeless_pure a
  | error e => exact timeless_throw _

theorem timeless_mapM {f : α → Act κ σ β} (list : List α) (h : ∀ a, Timeless (f a)) :
    Timeless (list.mapM f) := by
  induction list with
  | nil => exact timeless_pure []
  | cons a rest ih =>
    rw [List.mapM_cons]
    exact timeless_bind (h a) fun _ => timeless_bind ih fun _ => timeless_pure _

theorem timeless_within {part : σ → τ} {update : τ → σ → σ} {act : Act κ τ α}
    (hact : Timeless act) : Timeless (within part update act : Act κ σ α) := by
  intro s t h
  obtain ⟨hresult, hlater⟩ := hact (s.focus part) (t.focus part)
    ⟨congrArg part h.own, h.cluster⟩
  refine ⟨hresult, ?_, hlater.cluster⟩
  change update (act (s.focus part)).2.own s.own = update (act (t.focus part)).2.own t.own
  rw [hlater.own, h.own]

end Act

namespace Session

def NotBefore (s later : Session κ σ) : Prop := s.clock ≤ later.clock

instance : IsPreorder (Session κ σ) NotBefore where
  refl s := Nat.le_refl s.clock
  trans _ _ _ hab hbc := Nat.le_trans hab hbc

theorem permits_notBefore (client : Client κ) (asked : Request → Prop) :
    client.Permits asked (NotBefore : Session κ σ → Session κ σ → Prop) where
  pass s n := Nat.le_add_right s.clock n
  roll s := Nat.le_refl s.clock
  after _ s _ := Nat.le_add_right s.clock _

end Session

namespace Poll

/-- The least that a wait lasts which does not end at the deadline, in nanoseconds. -/
def stride (settings : Settings) : Nat := (settings.pace.min Act.longestSleep).nanoseconds

/-- With `left` looks to go the deadline is reached in time. -/
structure Suffices (settings : Settings) (started left clock : Nat) : Prop where
  some_left : 0 < left
  in_time : deadline settings started ≤
    (Duration.ofMillis clock).nanoseconds + (left - 1) * stride settings

theorem Suffices.start {settings : Settings} (clock : Nat)
    (h : settings.timeout.nanoseconds ≤ (attemptLimit - 1) * stride settings) :
    Suffices settings clock attemptLimit clock :=
  ⟨by decide, Nat.add_le_add_left h _⟩

/-- A wait in whole milliseconds reaches the deadline or lasts a stride. -/
theorem le_add_ceilMillis (pace rest longest : Nat) :
    Nat.min rest (Nat.min pace longest) ≤
      (Nat.min (Nat.min pace rest) longest + 999999) / 1000000 * 1000000 := by
  have hsame : Nat.min rest (Nat.min pace longest) = Nat.min (Nat.min pace rest) longest := by
    change min rest (min pace longest) = min (min pace rest) longest
    omega
  rw [hsame]
  generalize Nat.min (Nat.min pace rest) longest = d
  omega

theorem in_time_of_wait {finish clock now rest step wait unit : Nat}
    (htime : finish ≤ clock * unit + (rest + step)) (hnow : clock ≤ now)
    (hearly : ¬ finish ≤ now * unit) (hwait : min (finish - now * unit) step ≤ wait * unit) :
    finish ≤ (now + wait) * unit + rest := by
  have hlater : clock * unit ≤ now * unit := Nat.mul_le_mul_right _ hnow
  rw [Nat.add_mul]
  omega

/-- One look fewer suffices after a look that was too early and the sleep behind it. -/
theorem Suffices.next {settings : Settings} {started left clock now : Nat}
    (h : Suffices settings started (left + 1) clock) (hnow : clock ≤ now)
    (hearly : ¬ deadline settings started ≤ (Duration.ofMillis now).nanoseconds) :
    Suffices settings started left (now + ((settings.pace.min ⟨deadline settings started -
      (Duration.ofMillis now).nanoseconds⟩).min Act.longestSleep).ceilMillis) := by
  have htime := h.in_time
  cases left with
  | zero =>
    simp only [Duration.ofMillis, Nat.add_sub_cancel, Nat.zero_mul] at htime hearly
    omega
  | succ left =>
    refine ⟨Nat.succ_pos left, ?_⟩
    rw [Nat.add_sub_cancel, Nat.add_mul, Nat.one_mul] at htime
    rw [Nat.add_sub_cancel]
    exact in_time_of_wait htime hnow hearly (le_add_ceilMillis ..)

end Poll
end BackupWatch
