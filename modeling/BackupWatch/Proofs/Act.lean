import BackupWatch.Poll
import BackupWatch.Retry
import Mathlib.Order.Defs.Unbundled

/-!
Acts, run on a session. The equations say what each primitive act gives and leaves behind. An
act leads along a relation of sessions if it moves along it also when it fails; the rules compose
this over sequences, polls and retries, so that a loop is followed once and for all relations.
-/

namespace BackupWatch

open Time

variable {κ σ τ α β : Type}

theorem bind_eq_ok_iff {ε : Type} {x : Except ε α} {f : α → Except ε β} {b : β} :
    x >>= f = .ok b ↔ ∃ a, x = .ok a ∧ f a = .ok b := by
  cases x with
  | error => exact ⟨fun h => (nomatch h), fun ⟨_, hok, _⟩ => nomatch hok⟩
  | ok a => exact ⟨fun h => ⟨a, rfl, h⟩, fun ⟨_, hok, h⟩ => Except.ok.inj hok ▸ h⟩

theorem ok_of_toOption {ε : Type} {x : Except ε α} {a : α} (h : x.toOption = some a) :
    x = .ok a := by
  cases x with
  | error => cases h
  | ok b => exact congrArg _ (Option.some.inj h)

namespace Session

/-- The session as an act on a part of the own state sees it. -/
def focus (part : σ → τ) (s : Session κ σ) : Session κ τ := { s with own := part s.own }

/-- The session after an act on a part of the own state. -/
def unfocus (update : τ → σ → σ) (s : Session κ σ) (inner : Session κ τ) : Session κ σ :=
  { inner with own := update inner.own s.own }

def pass (s : Session κ σ) (millis : Nat) : Session κ σ := { s with clock := s.clock + millis }

def reroll (s : Session κ σ) (dice : Nat → Float) : Session κ σ := { s with dice }

def rolled (s : Session κ σ) : Session κ σ := s.reroll fun n => s.dice (n + 1)

theorem DiceInRange.rolled {s : Session κ σ} (h : s.DiceInRange) : s.rolled.DiceInRange :=
  fun n => h (n + 1)

end Session

namespace Act

theorem run_pure (a : α) (s : Session κ σ) : (pure a : Act κ σ α) s = (.ok a, s) := rfl

theorem run_own (s : Session κ σ) : (own : Act κ σ σ) s = (.ok s.own, s) := rfl

theorem run_setOwn (value : σ) (s : Session κ σ) :
    (setOwn value : Act κ σ Unit) s = (.ok (), { s with own := value }) := rfl

theorem run_clock (s : Session κ σ) : (clock : Act κ σ Nat) s = (.ok s.clock, s) := rfl

theorem run_sleep (d : Duration) (s : Session κ σ) :
    (sleep d : Act κ σ Unit) s = (.ok (), s.pass (d.min longestSleep).ceilMillis) := rfl

theorem run_roll (s : Session κ σ) :
    (roll : Act κ σ Float) s = (.ok (s.dice 0), s.rolled) := rfl

theorem run_throw (e : Failure) (s : Session κ σ) : (throw e : Act κ σ α) s = (.error e, s) := rfl

theorem run_fail (e : Error) (s : Session κ σ) :
    (fail e : Act κ σ α) s = (.error (.error e), s) := rfl

/-- The second act runs on the session that the first leaves, unless that has failed. -/
theorem run_bind (x : Act κ σ α) (f : α → Act κ σ β) (s : Session κ σ) :
    (x >>= f) s = match x s with
      | (.ok a, later) => f a later
      | (.error e, later) => (.error e, later) := by
  change StateT.bind x (ExceptT.bindCont f) s = _
  unfold StateT.bind
  rcases x s with ⟨_ | _, later⟩ <;> rfl

theorem run_bind_of_ok {x : Act κ σ α} {f : α → Act κ σ β} {s later : Session κ σ} {a : α}
    (h : x s = (.ok a, later)) : (x >>= f) s = f a later := by
  rw [run_bind, h]

theorem run_bind_of_error {x : Act κ σ α} {f : α → Act κ σ β} {s later : Session κ σ}
    {e : Failure} (h : x s = (.error e, later)) : (x >>= f) s = (.error e, later) := by
  rw [run_bind, h]

theorem run_bind_pure (x : Act κ σ α) (f : α → β) (s : Session κ σ) :
    (x >>= fun a => pure (f a)) s = ((x s).1.map f, (x s).2) := by
  rw [run_bind]
  rcases x s with ⟨_ | _, later⟩ <;> rfl

/-- An act on a part of the own state sees that part, and what it leaves is put back. -/
theorem run_within (part : σ → τ) (update : τ → σ → σ) (act : Act κ τ α) (s : Session κ σ) :
    within part update act s =
      ((act (s.focus part)).1, s.unfocus update (act (s.focus part)).2) := rfl

/-- From where `pre` holds, an act moves along `R`, and `post` holds of a result. -/
def Leads (R : Session κ σ → Session κ σ → Prop) (pre : Session κ σ → Prop) (act : Act κ σ α)
    (post : α → Session κ σ → Prop) : Prop :=
  ∀ s, pre s → R s (act s).2 ∧ ∀ a, (act s).1 = .ok a → post a (act s).2

section Rules

variable {R : Session κ σ → Session κ σ → Prop}
variable {pre : Session κ σ → Prop} {post : α → Session κ σ → Prop}

theorem Leads.imp {strong : Session κ σ → Prop} {weak : α → Session κ σ → Prop}
    {act : Act κ σ α} (h : Leads R pre act post) (hpre : ∀ s, strong s → pre s)
    (hpost : ∀ a s, post a s → weak a s) : Leads R strong act weak := by
  intro s hs
  obtain ⟨hmove, hresult⟩ := h s (hpre s hs)
  exact ⟨hmove, fun a ha => hpost a _ (hresult a ha)⟩

/-- An act moves along every relation that contains one along which it moves. -/
theorem Leads.mono {S : Session κ σ → Session κ σ → Prop} {act : Act κ σ α}
    (h : Leads R pre act post) (hRS : ∀ s later, R s later → S s later) : Leads S pre act post := by
  intro s hs
  obtain ⟨hmove, hresult⟩ := h s hs
  exact ⟨hRS s _ hmove, hresult⟩

variable [IsPreorder (Session κ σ) R]

theorem leads_pure (a : α) (h : ∀ s, pre s → post a s) : Leads R pre (pure a) post := by
  intro s hs
  refine ⟨refl_of R s, ?_⟩
  intro b hb
  cases hb
  exact h s hs

theorem leads_throw (e : Failure) : Leads R pre (throw e : Act κ σ α) post := by
  intro s _
  refine ⟨refl_of R s, ?_⟩
  intro a ha
  cases ha

theorem leads_own {post : σ → Session κ σ → Prop} (h : ∀ s, pre s → post s.own s) :
    Leads R pre own post := by
  intro s hs
  refine ⟨refl_of R s, ?_⟩
  intro a ha
  cases ha
  exact h s hs

theorem leads_clock {post : Nat → Session κ σ → Prop} (h : ∀ s, pre s → post s.clock s) :
    Leads R pre clock post := by
  intro s hs
  refine ⟨refl_of R s, ?_⟩
  intro a ha
  cases ha
  exact h s hs

omit [IsPreorder (Session κ σ) R] in
theorem leads_sleep (d : Duration) {post : Unit → Session κ σ → Prop}
    (hpass : ∀ s n, R s (s.pass n)) (h : ∀ s n, pre s → post () (s.pass n)) :
    Leads R pre (sleep d) post := by
  intro s hs
  rw [run_sleep]
  exact ⟨hpass s _, fun _ _ => h s _ hs⟩

/-- What holds of the result of the first act is where the second may start. -/
theorem leads_bind {x : Act κ σ α} {f : α → Act κ σ β} {post : β → Session κ σ → Prop}
    (mid : α → Session κ σ → Prop) (hx : Leads R pre x mid)
    (hf : ∀ a, Leads R (mid a) (f a) post) : Leads R pre (x >>= f) post := by
  intro s hs
  obtain ⟨hmove, hresult⟩ := hx s hs
  rw [run_bind]
  rcases hrun : x s with ⟨e | a, later⟩
  · rw [hrun] at hmove
    refine ⟨hmove, ?_⟩
    intro b hb
    cases hb
  · rw [hrun] at hmove hresult
    obtain ⟨hnext, hlast⟩ := hf a later (hresult a rfl)
    exact ⟨trans_of R hmove hnext, hlast⟩

omit [IsPreorder (Session κ σ) R] in
theorem leads_ite {c : Prop} [Decidable c] {x y : Act κ σ α}
    (hx : c → Leads R pre x post) (hy : ¬ c → Leads R pre y post) :
    Leads R pre (if c then x else y) post := by
  split
  · next h => exact hx h
  · next h => exact hy h

theorem leads_ofExcept {result : Except Error α} (h : ∀ a s, result = .ok a → pre s → post a s) :
    Leads R pre (ofExcept result) post := by
  cases result with
  | ok a => exact leads_pure a fun s hs => h a s rfl hs
  | error e => exact leads_throw _

theorem leads_ofFault {result : Except Fault α} (h : ∀ a s, pre s → post a s) :
    Leads R pre (ofFault result) post := by
  cases result with
  | ok a => exact leads_pure a fun s hs => h a s hs
  | error e => exact leads_throw _

omit [IsPreorder (Session κ σ) R] in
/-- A caught error leaves what holds along `R`. -/
theorem leads_attempt {act : Act κ σ α} (hkeep : ∀ s later, R s later → pre s → pre later)
    (hact : Leads R pre act post) :
    Leads R pre (attempt act) fun result s => pre s ∧ ∀ a, result = .ok a → post a s := by
  intro s hs
  obtain ⟨hmove, hresult⟩ := hact s hs
  have hlater := hkeep s _ hmove hs
  unfold attempt
  rcases hrun : act s with ⟨(e | f) | a, later⟩
  · rw [hrun] at hmove hlater
    refine ⟨hmove, ?_⟩
    intro result hr
    cases hr
    exact ⟨hlater, fun _ h => by cases h⟩
  · rw [hrun] at hmove
    refine ⟨hmove, ?_⟩
    intro result hr
    cases hr
  · rw [hrun] at hmove hlater hresult
    refine ⟨hmove, ?_⟩
    intro result hr
    cases hr
    refine ⟨hlater, ?_⟩
    intro b hb
    cases hb
    exact hresult a rfl

/-- A condition that each act on the list keeps is kept by the acts in a row. -/
theorem leads_mapM {f : α → Act κ σ β} {list : List α}
    (h : ∀ a ∈ list, Leads R pre (f a) fun _ s => pre s) :
    Leads R pre (list.mapM f) fun _ s => pre s := by
  induction list with
  | nil => exact leads_pure [] fun _ hs => hs
  | cons a rest ih =>
    rw [List.mapM_cons]
    refine leads_bind _ (h a (List.mem_cons_self ..)) fun _ => ?_
    refine leads_bind _ (ih fun b hb => h b (List.mem_cons_of_mem a hb)) fun _ => ?_
    exact leads_pure _ fun _ hs => hs

end Rules

def Succeeds (act : Act κ σ α) : Prop := ∀ s, ∃ a, (act s).1 = .ok a

theorem succeeds_bind {x : Act κ σ α} {f : α → Act κ σ β} (hx : Succeeds x)
    (hf : ∀ a, Succeeds (f a)) : Succeeds (x >>= f) := by
  intro s
  obtain ⟨a, ha⟩ := hx s
  rw [run_bind]
  rcases hrun : x s with ⟨e | b, later⟩
  · rw [hrun] at ha
    cases ha
  · exact hf b later

theorem succeeds_forM {f : α → Act κ σ Unit} (list : List α) (h : ∀ a, Succeeds (f a)) :
    Succeeds (list.forM f) := by
  induction list with
  | nil => exact fun s => ⟨(), rfl⟩
  | cons a rest ih => exact succeeds_bind (h a) fun _ => ih

theorem succeeds_mapM {f : α → Act κ σ β} (list : List α) (h : ∀ a, Succeeds (f a)) :
    Succeeds (list.mapM f) := by
  induction list with
  | nil => exact fun s => ⟨[], rfl⟩
  | cons a rest ih =>
    rw [List.mapM_cons]
    exact succeeds_bind (h a) fun _ => succeeds_bind ih fun _ s => ⟨_, rfl⟩

end Act

namespace Poll

open Act

theorem run_eq (settings : Settings) (operation : String) (look : Act κ σ Status)
    (s : Session κ σ) :
    run settings operation look s =
      if (Duration.ofSeconds clockEnd).nanoseconds ≤ deadline settings s.clock then
        (.error (.fault .deadlineOutOfRange), s)
      else loop settings operation look s.clock attemptLimit 0 s := by
  rw [run, run_bind, run_clock]
  simp only
  split
  · rw [run_bind, run_throw]
  · rfl

variable {R : Session κ σ → Session κ σ → Prop} [IsPreorder (Session κ σ) R]
variable {pre goal : Session κ σ → Prop}

/-- What a pending look gives back and waiting keeps is there at every look. -/
theorem leads_loop (settings : Settings) (operation : String) {look : Act κ σ Status}
    (started : Nat) (hpass : ∀ s n, R s (s.pass n)) (hpre : ∀ s n, pre s → pre (s.pass n))
    (hlook : Leads R pre look fun status s => if status.done then goal s else pre s)
    (left attempts : Nat) :
    Leads R pre (loop settings operation look started left attempts) fun _ s => goal s := by
  induction left generalizing attempts with
  | zero => exact leads_throw _
  | succ left ih =>
    unfold loop
    refine leads_bind _ hlook fun status => ?_
    refine leads_bind (fun _ s => if status.done then goal s else pre s)
      (leads_clock fun _ h => h) fun now => ?_
    refine leads_ite (fun hdone => leads_pure _ fun s hs => ?_) fun hdone => ?_
    · simpa only [hdone, if_true] using hs
    · refine leads_ite (fun _ => leads_throw _) fun _ => ?_
      refine leads_bind (fun _ s => pre s) (leads_sleep _ hpass fun s n hs => ?_)
        fun _ => ih (attempts + 1)
      exact hpre s n (by simpa [hdone] using hs)

theorem leads_run (settings : Settings) (operation : String) {look : Act κ σ Status}
    (hpass : ∀ s n, R s (s.pass n)) (hpre : ∀ s n, pre s → pre (s.pass n))
    (hlook : Leads R pre look fun status s => if status.done then goal s else pre s) :
    Leads R pre (run settings operation look) fun _ s => goal s := by
  unfold run
  refine leads_bind (fun _ s => pre s) (leads_clock fun _ h => h) fun started => ?_
  have hloop := leads_loop settings operation started hpass hpre hlook attemptLimit 0
  refine leads_ite (fun _ => ?_) fun _ => hloop
  exact leads_bind (fun _ s => pre s) (leads_throw _) fun _ => hloop

end Poll

namespace Retry

open Act

variable {R : Session κ σ → Session κ σ → Prop} [IsPreorder (Session κ σ) R]
variable {pre : Session κ σ → Prop} {post : α → Session κ σ → Prop}

theorem leads_draw (width : Float) (hroll : ∀ s, R s s.rolled) :
    Leads R (fun _ => True) (draw width) fun _ _ => True := by
  unfold draw
  refine leads_ite (fun _ => ?_) fun _ => leads_ofFault fun _ _ _ => trivial
  refine leads_bind (fun _ _ => True) ?_ fun _ => leads_pure _ fun _ _ => trivial
  intro s _
  rw [run_roll]
  exact ⟨hroll s, fun _ _ => trivial⟩

theorem leads_delay (p : Policy) (attempt : Nat) (hroll : ∀ s, R s s.rolled) :
    Leads R (fun _ => True) (p.delay attempt) fun _ _ => True := by
  unfold Policy.delay
  refine leads_bind (fun _ _ => True) (leads_ofFault fun _ _ _ => trivial) fun base => ?_
  refine leads_ite (fun _ => leads_ofFault fun _ _ _ => trivial) fun _ => ?_
  exact leads_bind (fun _ _ => True) (leads_draw _ hroll) fun _ =>
    leads_ofFault fun _ _ _ => trivial

/-- An act that succeeds is not tried again. -/
theorem run_of_ok {p : Policy} {operation : String} {act : Act κ σ α} {s later : Session κ σ}
    {a : α} (h : act s = (.ok a, later)) : run p operation act s = (.ok a, later) := by
  unfold run
  cases p.maxAttempts - 1 with
  | zero =>
    unfold loop
    rw [run_bind]
    simp only [Act.attempt, h, run_pure]
  | succ left =>
    unfold loop
    rw [run_bind]
    simp only [Act.attempt, h, run_pure]

/-- What holds along `R` holds at every attempt. -/
theorem leads_loop (p : Policy) (operation : String) {act : Act κ σ α}
    (hpass : ∀ s n, R s (s.pass n)) (hroll : ∀ s, R s s.rolled)
    (hkeep : ∀ s later, R s later → pre s → pre later) (hact : Leads R pre act post)
    (left tries : Nat) : Leads R pre (loop p operation act left tries) post := by
  induction left generalizing tries with
  | zero =>
    unfold loop
    refine leads_bind _ (leads_attempt hkeep hact) fun result => ?_
    cases result with
    | ok a => exact leads_pure a fun s hs => hs.2 a rfl
    | error e => exact leads_ite (fun _ => leads_throw _) fun _ => leads_throw _
  | succ left ih =>
    unfold loop
    refine leads_bind _ (leads_attempt hkeep hact) fun result => ?_
    cases result with
    | ok a => exact leads_pure a fun s hs => hs.2 a rfl
    | error e =>
      refine leads_ite (fun _ => ?_) fun _ => leads_throw _
      have hdelay : Leads R pre (p.delay tries) fun _ s => pre s := by
        intro s hs
        have hmove := (leads_delay p tries hroll s trivial).1
        exact ⟨hmove, fun _ _ => hkeep s _ hmove hs⟩
      refine leads_bind _ (hdelay.imp (fun _ hs => hs.1) fun _ _ hs => hs) fun d => ?_
      exact leads_bind _ (leads_sleep d hpass fun s n hs => hkeep s _ (hpass s n) hs)
        fun _ => ih (tries + 1)

theorem leads_run (p : Policy) (operation : String) {act : Act κ σ α}
    (hpass : ∀ s n, R s (s.pass n)) (hroll : ∀ s, R s s.rolled)
    (hkeep : ∀ s later, R s later → pre s → pre later) (hact : Leads R pre act post) :
    Leads R pre (run p operation act) post :=
  leads_loop p operation hpass hroll hkeep hact _ _

end Retry
end BackupWatch
