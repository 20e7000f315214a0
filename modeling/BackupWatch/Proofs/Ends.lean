import BackupWatch.Proofs.Timeless

/-!
How acts end. From where a precondition holds, an act ends in a result, of which one thing holds,
or in a failure, of which another does. Rules follow the parts of an act; the failure of a part is
that of the whole. A poll whose pending looks all come before its deadline does not time out.
-/

namespace BackupWatch

open Time

variable {κ σ τ α β : Type}

/-- A failure that a caller may see and go on. -/
def Failure.IsError (f : Failure) : Prop := ∃ e, f = .error e

namespace Act

inductive Ending (post : α → Session κ σ → Prop) (ex : Failure → Session κ σ → Prop) :
    Except Failure α × Session κ σ → Prop
  | ok {a : α} {later : Session κ σ} (h : post a later) : Ending post ex (.ok a, later)
  | error {f : Failure} {later : Session κ σ} (h : ex f later) : Ending post ex (.error f, later)

def Ends (pre : Session κ σ → Prop) (act : Act κ σ α) (post : α → Session κ σ → Prop)
    (ex : Failure → Session κ σ → Prop) : Prop :=
  ∀ s, pre s → Ending post ex (act s)

abbrev Keeps (holds : Session κ σ → Prop) (act : Act κ σ α) : Prop :=
  Ends holds act (fun _ => holds) fun _ => holds

theorem Keeps.run {holds : Session κ σ → Prop} {act : Act κ σ α} (h : Keeps holds act)
    {s : Session κ σ} (hs : holds s) : holds (act s).2 := by
  have hend := h s hs
  generalize act s = result at hend
  cases hend with
  | ok hlater => exact hlater
  | error hlater => exact hlater

variable {pre : Session κ σ → Prop} {post : α → Session κ σ → Prop}
variable {ex : Failure → Session κ σ → Prop}

theorem Ends.of_ok {act : Act κ σ α} (h : Ends pre act post ex) {s : Session κ σ} (hs : pre s)
    {a : α} (ha : (act s).1 = .ok a) : post a (act s).2 := by
  have hend := h s hs
  generalize act s = result at hend ha ⊢
  cases hend with
  | ok hlater => exact Except.ok.inj ha ▸ hlater
  | error _ => cases ha

theorem Ends.of_error {act : Act κ σ α} (h : Ends pre act post ex) {s : Session κ σ} (hs : pre s)
    {f : Failure} (hf : (act s).1 = .error f) : ex f (act s).2 := by
  have hend := h s hs
  generalize act s = result at hend hf ⊢
  cases hend with
  | ok _ => cases hf
  | error hlater => exact Except.error.inj hf ▸ hlater

theorem Ends.imp {strong : Session κ σ → Prop} {weak : α → Session κ σ → Prop}
    {lax : Failure → Session κ σ → Prop} {act : Act κ σ α} (h : Ends pre act post ex)
    (hpre : ∀ s, strong s → pre s) (hpost : ∀ a s, post a s → weak a s)
    (hex : ∀ f s, ex f s → lax f s) : Ends strong act weak lax := by
  intro s hs
  have hend := h s (hpre s hs)
  generalize act s = result at hend
  cases hend with
  | ok hlater => exact .ok (hpost _ _ hlater)
  | error hlater => exact .error (hex _ _ hlater)

theorem ends_pure (a : α) (h : ∀ s, pre s → post a s) : Ends pre (pure a) post ex :=
  fun s hs => .ok (h s hs)

theorem ends_throw (f : Failure) (h : ∀ s, pre s → ex f s) :
    Ends pre (throw f : Act κ σ α) post ex :=
  fun s hs => .error (h s hs)

theorem ends_own {post : σ → Session κ σ → Prop} (h : ∀ s, pre s → post s.own s) :
    Ends pre own post ex :=
  fun s hs => .ok (h s hs)

theorem ends_clock {post : Nat → Session κ σ → Prop} (h : ∀ s, pre s → post s.clock s) :
    Ends pre clock post ex :=
  fun s hs => .ok (h s hs)

theorem ends_sleep (d : Duration) {post : Unit → Session κ σ → Prop}
    (h : ∀ s, pre s → post () (s.pass (d.min longestSleep).ceilMillis)) :
    Ends pre (sleep d) post ex :=
  fun s hs => .ok (h s hs)

/-- In a sequence the second act starts where the first may end with a result. -/
theorem ends_bind {x : Act κ σ α} {f : α → Act κ σ β} {post : β → Session κ σ → Prop}
    (mid : α → Session κ σ → Prop) (hx : Ends pre x mid ex)
    (hf : ∀ a, Ends (mid a) (f a) post ex) : Ends pre (x >>= f) post ex := by
  intro s hs
  have hend := hx s hs
  rw [run_bind]
  generalize x s = result at hend
  cases hend with
  | ok hmid => exact hf _ _ hmid
  | error hlater => exact .error hlater

theorem ends_ite {c : Prop} [Decidable c] {x y : Act κ σ α} (hx : c → Ends pre x post ex)
    (hy : ¬ c → Ends pre y post ex) : Ends pre (if c then x else y) post ex := by
  split
  · next h => exact hx h
  · next h => exact hy h

theorem ends_ofExcept {result : Except Error α} (hok : ∀ a s, result = .ok a → pre s → post a s)
    (herror : ∀ e s, result = .error e → pre s → ex (.error e) s) :
    Ends pre (ofExcept result) post ex := by
  cases result with
  | ok a => exact ends_pure a fun s hs => hok a s rfl hs
  | error e => exact ends_throw _ fun s hs => herror e s rfl hs

theorem keeps_of_run {holds : Session κ σ → Prop} {act : Act κ σ α}
    (h : ∀ s, holds s → holds (act s).2) : Keeps holds act := by
  intro s hs
  have hlater := h s hs
  rcases hrun : act s with ⟨f | a, later⟩
  · exact .error (by rwa [hrun] at hlater)
  · exact .ok (by rwa [hrun] at hlater)

/-- What is known of the results of an act along a relation may be added. -/
theorem Ends.and_leads {R : Session κ σ → Session κ σ → Prop} {more : α → Session κ σ → Prop}
    {act : Act κ σ α} (h : Ends pre act post ex) (hlead : Leads R pre act more) :
    Ends pre act (fun a s => post a s ∧ more a s) ex := by
  intro s hs
  have hend := h s hs
  have hmore := (hlead s hs).2
  generalize act s = result at hend hmore
  cases hend with
  | ok hlater => exact .ok ⟨hlater, hmore _ rfl⟩
  | error hlater => exact .error hlater

/-- A fault is not caught, and an error becomes a result. -/
theorem ends_attempt {act : Act κ σ α} (h : Ends pre act post ex) :
    Ends pre (attempt act) (fun result s => match result with
      | .ok a => post a s
      | .error e => ex (.error e) s) ex := by
  intro s hs
  have hend := h s hs
  unfold attempt
  generalize act s = result at hend
  cases hend with
  | ok hlater => exact .ok hlater
  | @error f _ hlater =>
    cases f with
    | error e => exact .ok hlater
    | fault f => exact .error hlater

theorem ends_ofFault {result : Except Fault α} (hok : ∀ a s, pre s → post a s)
    (hfault : ∀ f s, pre s → ex f s) : Ends pre (ofFault result) post ex := by
  cases result with
  | ok a => exact ends_pure a fun s hs => hok a s hs
  | error f => exact ends_throw _ fun s hs => hfault _ s hs

theorem ends_forM {holds : Session κ σ → Prop} {f : α → Act κ σ Unit} (list : List α)
    (h : ∀ a, Ends holds (f a) (fun _ => holds) ex) :
    Ends holds (list.forM f) (fun _ => holds) ex := by
  induction list with
  | nil => exact ends_pure () fun _ hs => hs
  | cons a rest ih => exact ends_bind (fun _ => holds) (h a) fun _ => ih

end Act

namespace Poll

open Act

variable {pre goal : Session κ σ → Prop} {ex : Failure → Session κ σ → Prop}

/-- What a pending look gives back and waiting keeps is there at every look, and when the poll
fails on its own. -/
theorem ends_loop (settings : Settings) (operation : String) {look : Act κ σ Status}
    (started : Nat) (hpass : ∀ s n, pre s → pre (s.pass n)) (hown : ∀ f s, pre s → ex f s)
    (hlook : Ends pre look (fun status s => if status.done then goal s else pre s) ex)
    (left attempts : Nat) :
    Ends pre (loop settings operation look started left attempts) (fun _ s => goal s) ex := by
  induction left generalizing attempts with
  | zero => exact ends_throw _ fun s hs => hown _ s hs
  | succ left ih =>
    unfold loop
    refine ends_bind _ hlook fun status => ?_
    refine ends_bind (fun _ s => if status.done then goal s else pre s)
      (ends_clock fun _ h => h) fun now => ?_
    refine ends_ite (fun hdone => ends_pure _ fun s hs => ?_) fun hdone => ?_
    · simpa only [hdone, if_true] using hs
    · simp only [hdone, Bool.false_eq_true, if_false]
      refine ends_ite (fun _ => ends_throw _ fun s hs => hown _ s hs) fun _ => ?_
      exact ends_bind (fun _ => pre) (ends_sleep _ fun s hs => hpass s _ hs) fun _ =>
        ih (attempts + 1)

theorem ends_run (settings : Settings) (operation : String) {look : Act κ σ Status}
    (hpass : ∀ s n, pre s → pre (s.pass n)) (hown : ∀ f s, pre s → ex f s)
    (hlook : Ends pre look (fun status s => if status.done then goal s else pre s) ex) :
    Ends pre (run settings operation look) (fun _ s => goal s) ex := by
  intro s hs
  rw [run_eq]
  split
  · exact .error (hown _ s hs)
  · exact ends_loop settings operation s.clock hpass hown hlook attemptLimit 0 s hs

def longestWait (settings : Settings) : Nat := (settings.pace.min longestSleep).ceilMillis

theorem wait_le_longestWait (settings : Settings) (rest : Duration) :
    ((settings.pace.min rest).min longestSleep).ceilMillis ≤ longestWait settings := by
  refine Nat.div_le_div_right (Nat.add_le_add_right ?_ 999999)
  change min (min _ _) _ ≤ min _ _
  omega

/-- The counter of looks can hold the time-out, and the clock the deadlines of all polls that begin
with the first pending look at the latest or, after one more wait, when the time-out is over. -/
structure Fits (settings : Settings) (first : Nat) : Prop where
  looks : settings.timeout.nanoseconds ≤ (attemptLimit - 1) * stride settings
  deadlines : deadline settings (first + settings.timeout.ceilMillis + longestWait settings) <
    (Duration.ofSeconds clockEnd).nanoseconds

/-- Pending looks come before some time, which no poll has its deadline before. -/
theorem ends_loop_in_time (settings : Settings) (operation : String) {look : Act κ σ Status}
    {due : Nat} (started : Nat) (hdue : due ≤ deadline settings started)
    (hpass : ∀ s n, pre s → (Duration.ofMillis s.clock).nanoseconds < due →
      n ≤ longestWait settings → pre (s.pass n))
    (hlook : ∀ clock, Ends (fun s => pre s ∧ s.clock = clock) look (fun status s =>
      if status.done then goal s
      else pre s ∧ clock ≤ s.clock ∧ (Duration.ofMillis s.clock).nanoseconds < due) ex)
    (left attempts : Nat) :
    Ends (fun s => pre s ∧ Suffices settings started left s.clock)
      (loop settings operation look started left attempts) (fun _ s => goal s) ex := by
  induction left generalizing attempts with
  | zero =>
    intro s hs
    exact absurd hs.2.some_left (Nat.lt_irrefl 0)
  | succ left ih =>
    intro s hs
    obtain ⟨hpre, hsuffices⟩ := hs
    unfold loop
    refine ends_bind _ (hlook s.clock) (fun status => ?_) s ⟨hpre, rfl⟩
    refine ends_bind (fun now later => later.clock = now ∧ if status.done then goal later
      else pre later ∧ s.clock ≤ later.clock ∧
        (Duration.ofMillis later.clock).nanoseconds < due)
      (ends_clock fun _ h => ⟨rfl, h⟩) fun now => ?_
    refine ends_ite (fun hdone => ends_pure _ fun later h => ?_) fun hpending => ?_
    · simpa only [hdone, if_true] using h.2
    · simp only [hpending, Bool.false_eq_true, if_false]
      rintro later ⟨rfl, hlater, hnow, hearly⟩
      have hopen : ¬ deadline settings started ≤ (Duration.ofMillis later.clock).nanoseconds := by
        omega
      rw [if_neg hopen]
      refine ends_bind _ (ends_sleep _ fun t ht => ?_) (fun _ => ih (attempts + 1)) later rfl
      subst ht
      exact ⟨hpass later _ hlater hearly (wait_le_longestWait settings _),
        hsuffices.next hnow hopen⟩

theorem ends_run_in_time (settings : Settings) (operation : String) {look : Act κ σ Status}
    {due : Nat} (hlooks : settings.timeout.nanoseconds ≤ (attemptLimit - 1) * stride settings)
    (hdue : ∀ s, pre s → due ≤ deadline settings s.clock)
    (hclock : ∀ s, pre s → deadline settings s.clock < (Duration.ofSeconds clockEnd).nanoseconds)
    (hpass : ∀ s n, pre s → (Duration.ofMillis s.clock).nanoseconds < due →
      n ≤ longestWait settings → pre (s.pass n))
    (hlook : ∀ clock, Ends (fun s => pre s ∧ s.clock = clock) look (fun status s =>
      if status.done then goal s
      else pre s ∧ clock ≤ s.clock ∧ (Duration.ofMillis s.clock).nanoseconds < due) ex) :
    Ends pre (run settings operation look) (fun _ s => goal s) ex := by
  intro s hs
  rw [run_eq, if_neg (Nat.not_le.mpr (hclock s hs))]
  exact ends_loop_in_time settings operation s.clock (hdue s hs) hpass hlook attemptLimit 0 s
    ⟨hs, .start s.clock hlooks⟩

end Poll

namespace Retry

open Act

variable {pre : Session κ σ → Prop} {post : α → Session κ σ → Prop}
variable {ex : Failure → Session κ σ → Prop}

/-- A delay takes no more than a roll of the dice, and fails in faults alone. -/
theorem ends_delay (p : Policy) (tries : Nat) (hroll : ∀ s, pre s → pre s.rolled)
    (hown : ∀ f s, pre s → ex f s) :
    Ends pre (p.delay tries) (fun _ => pre) ex := by
  have hfault : ∀ {α : Type} (result : Except Fault α),
      Ends pre (ofFault result) (fun _ => pre) ex :=
    fun _ => ends_ofFault (fun _ _ h => h) hown
  have hdraw : Ends pre (draw p.jitter) (fun _ => pre) ex := by
    unfold draw
    refine ends_ite (fun _ => ?_) fun _ => hfault _
    have hone : Ends pre roll (fun _ => pre) ex := fun s hs => .ok (hroll s hs)
    exact ends_bind _ hone fun _ => ends_pure _ fun _ hs => hs
  unfold Policy.delay
  refine ends_bind _ (hfault _) fun base => ends_ite (fun _ => hfault _) fun _ => ?_
  exact ends_bind _ hdraw fun _ => hfault _

/-- What an attempt that ends in a conflict leaves, and waiting keeps, is where the next attempt
may start or where the attempts are given up. -/
theorem ends_loop (p : Policy) (operation : String) {act : Act κ σ α}
    {fails : Failure → Session κ σ → Prop} {again : Session κ σ → Prop}
    (hpass : ∀ s n, again s → again (s.pass n)) (hroll : ∀ s, again s → again s.rolled)
    (hown : ∀ f s, again s → ex f s) (hagain : ∀ s, again s → pre s)
    (hact : Ends pre act post fails)
    (hconflict : ∀ e s, fails (.error e) s → e.isConflict = true → again s)
    (hother : ∀ f s, fails f s → ex f s) (left tries : Nat) :
    Ends pre (loop p operation act left tries) post ex := by
  have hattempt := (ends_attempt hact).imp (fun _ h => h) (fun _ _ h => h) hother
  induction left generalizing tries with
  | zero =>
    unfold loop
    refine ends_bind _ hattempt fun result => ?_
    cases result with
    | ok a => exact ends_pure a fun _ hs => hs
    | error e =>
      refine ends_ite (fun hc => ?_) fun _ => ends_throw _ fun s hs => hother _ s hs
      exact ends_throw _ fun s hs => hown _ s (hconflict e s hs hc)
  | succ left ih =>
    unfold loop
    refine ends_bind _ hattempt fun result => ?_
    cases result with
    | ok a => exact ends_pure a fun _ hs => hs
    | error e =>
      refine ends_ite (fun hc => ?_) fun _ => ends_throw _ fun s hs => hother _ s hs
      refine ends_bind (fun _ => again) ((ends_delay p tries hroll hown).imp
        (fun s hs => hconflict e s hs hc) (fun _ _ h => h) fun _ _ h => h) fun d => ?_
      refine ends_bind (fun _ => again) (ends_sleep d fun s hs => hpass s _ hs) fun _ => ?_
      exact (ih (tries + 1)).imp hagain (fun _ _ h => h) fun _ _ h => h

theorem ends_run (p : Policy) (operation : String) {act : Act κ σ α}
    {fails : Failure → Session κ σ → Prop} {again : Session κ σ → Prop}
    (hpass : ∀ s n, again s → again (s.pass n)) (hroll : ∀ s, again s → again s.rolled)
    (hown : ∀ f s, again s → ex f s) (hagain : ∀ s, again s → pre s)
    (hact : Ends pre act post fails)
    (hconflict : ∀ e s, fails (.error e) s → e.isConflict = true → again s)
    (hother : ∀ f s, fails f s → ex f s) :
    Ends pre (run p operation act) post ex :=
  ends_loop p operation hpass hroll hown hagain hact hconflict hother _ _

end Retry
end BackupWatch
