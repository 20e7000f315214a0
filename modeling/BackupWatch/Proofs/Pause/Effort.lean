import BackupWatch.Proofs.Limits
import BackupWatch.Proofs.Pause.Reach
import BackupWatch.Proofs.Raise

/-!
The effort of pausing and resuming. Bringing one object to a target takes no more reads and no more
writes than the retry policy has attempts, and waiting for the control plane no more looks than the
poll has. A workload is driven object by object: the hosted cluster, then the pools that the
cluster has listed, up to the first failure.
-/

namespace BackupWatch

open Act Cluster

variable {κ σ τ α β : Type}

namespace Cluster.Request

def readsPause : Request → Bool
  | readPause _ => true
  | _ => false

def writesPause : Request → Bool
  | writePause _ _ _ => true
  | _ => false

def looksAtPlane : Request → Bool
  | controlPlane _ => true
  | _ => false

end Cluster.Request

namespace Act

/-- While something holds of the session, an act adds exchanges of which one thing holds if it ends
in a result, and another if it fails; and there is a reason for its failures. -/
def AddsWhile (holds : Session (Chronicle κ) σ → Prop)
    (why : Failure → Session (Chronicle κ) σ → Prop) (act : Act (Chronicle κ) σ α)
    (post : α → List Exchange → Prop) (part : List Exchange → Prop) : Prop :=
  ∀ base, Ends (fun s => s.history = base ∧ holds s) act
    (fun a s => Session.Since base (post a) s ∧ holds s)
    fun f s => Session.Since base part s ∧ why f s

section Rules

variable {holds : Session (Chronicle κ) σ → Prop}
variable {why : Failure → Session (Chronicle κ) σ → Prop}
variable {post : α → List Exchange → Prop} {part : List Exchange → Prop}

theorem Adds.addsWhile {act : Act (Chronicle κ) σ α}
    (h : Adds act post fun f new => part new ∧ ∀ s, why f s)
    (hkeep : ∀ s, holds s → holds (act s).2) : AddsWhile holds why act post part := by
  intro base s hs
  have hend := h base s hs.1
  have hlast := hkeep s hs.2
  generalize act s = result at hend hlast
  cases hend with
  | ok hlater => exact .ok ⟨hlater, hlast⟩
  | error hlater =>
    obtain ⟨new, hnew, hpart, hwhy⟩ := hlater
    exact .error ⟨⟨new, hnew, hpart⟩, hwhy _⟩

/-- What an act adds and what it fails for may be shown apart. -/
theorem Adds.addsWhile_of_raises {act : Act (Chronicle κ) σ α} (h : Adds act post fun _ => part)
    (hwhy : Raises act why) (hkeep : ∀ s, holds s → holds (act s).2) :
    AddsWhile holds why act post part := by
  intro base s hs
  have hend := h base s hs.1
  have hlast := hkeep s hs.2
  have hfail := hwhy s
  generalize act s = result at hend hlast hfail
  cases hend with
  | ok hlater => exact .ok ⟨hlater, hlast⟩
  | error hlater => exact .error ⟨hlater, hfail _ rfl⟩

theorem AddsWhile.imp {weak : α → List Exchange → Prop} {lax : List Exchange → Prop}
    {act : Act (Chronicle κ) σ α} (h : AddsWhile holds why act post part)
    (hpost : ∀ a new, post a new → weak a new) (hpart : ∀ new, part new → lax new) :
    AddsWhile holds why act weak lax :=
  fun base => (h base).imp (fun _ hs => hs)
    (fun a _ hs => ⟨hs.1.imp fun new hnew => ⟨hnew.1, hpost a new hnew.2⟩, hs.2⟩)
    fun _ _ hs => ⟨hs.1.imp fun new hnew => ⟨hnew.1, hpart new hnew.2⟩, hs.2⟩

/-- What a run adds, however it ends. -/
theorem AddsWhile.exists_new {act : Act (Chronicle κ) σ α}
    (h : AddsWhile holds why act (fun _ => part) part) {s : Session (Chronicle κ) σ}
    (hs : holds s) :
    (∃ new, (act s).2.history = s.history ++ new ∧ part new) ∧
      ∀ f, (act s).1 = .error f → why f (act s).2 := by
  have hend := h s.history s ⟨rfl, hs⟩
  generalize act s = result at hend
  cases hend with
  | ok hlater => exact ⟨hlater.1, fun f hf => by cases hf⟩
  | error hlater =>
    refine ⟨hlater.1, fun f hf => ?_⟩
    cases hf
    exact hlater.2

theorem addsWhile_pure (a : α) (h : post a []) :
    AddsWhile holds why (pure a : Act (Chronicle κ) σ α) post part :=
  (adds_pure a h).addsWhile fun _ hs => hs

theorem addsWhile_bind {x : Act (Chronicle κ) σ α} {f : α → Act (Chronicle κ) σ β}
    {post : β → List Exchange → Prop} (mid : α → List Exchange → Prop)
    (hx : AddsWhile holds why x mid part)
    (hf : ∀ a, AddsWhile holds why (f a)
      (fun b second => ∀ first, mid a first → post b (first ++ second))
      fun second => ∀ first, mid a first → part (first ++ second)) :
    AddsWhile holds why (x >>= f) post part := by
  intro base
  refine ends_bind _ (hx base) fun a => ?_
  rintro s ⟨⟨first, hfirst, hmid⟩, hholds⟩
  have hend := hf a _ s ⟨hfirst, hholds⟩
  generalize f a s = result at hend
  cases hend with
  | ok hlater =>
    obtain ⟨⟨second, hsecond, hpost⟩, hlast⟩ := hlater
    exact .ok ⟨⟨first ++ second, by rw [hsecond, List.append_assoc], hpost first hmid⟩, hlast⟩
  | error hlater =>
    obtain ⟨⟨second, hsecond, hpart⟩, hwhy⟩ := hlater
    exact .error ⟨⟨first ++ second, by rw [hsecond, List.append_assoc], hpart first hmid⟩, hwhy⟩

/-- An act may use what holds of the session. -/
theorem addsWhile_own_bind {f : σ → Act (Chronicle κ) σ α}
    (hf : ∀ s, holds s → AddsWhile holds why (f s.own) post part) :
    AddsWhile holds why (own >>= f) post part := by
  rintro base s ⟨hs, hholds⟩
  rw [run_bind, run_own]
  exact hf s hholds base s ⟨hs, hholds⟩

theorem addsWhile_ite {c : Prop} [Decidable c] {x y : Act (Chronicle κ) σ α}
    (hx : c → AddsWhile holds why x post part) (hy : ¬ c → AddsWhile holds why y post part) :
    AddsWhile holds why (if c then x else y) post part := by
  split
  · next h => exact hx h
  · next h => exact hy h

theorem addsWhile_within {read : σ → τ} {update : τ → σ → σ} {act : Act (Chronicle κ) τ α}
    {inner : Session (Chronicle κ) τ → Prop}
    {reason : Failure → Session (Chronicle κ) τ → Prop}
    (h : AddsWhile inner reason act post part) (hread : ∀ s, holds s → inner (s.focus read))
    (hupdate : ∀ s later, inner later → holds s → holds (s.unfocus update later))
    (hwhy : ∀ f s later, reason f later → why f (Session.unfocus update s later)) :
    AddsWhile holds why (within read update act) post part := by
  intro base s hs
  have hend := h base (s.focus read) ⟨hs.1, hread s hs.2⟩
  rw [run_within]
  generalize act (s.focus read) = result at hend
  cases hend with
  | ok hlater => exact .ok ⟨hlater.1, hupdate s _ hlater.2 hs.2⟩
  | error hlater => exact .error ⟨hlater.1, hwhy _ s _ hlater.2⟩

end Rules
end Act

namespace Pause

open Orchestrator

/-- Exchanges about the pause field of one object, in some number of attempts. -/
structure Effort (attempts : Nat) (target : Target) (object : Managed) (new : List Exchange) :
    Prop where
  about : ∀ e ∈ new, About target object e
  reads : new.countP (·.request.readsPause) ≤ attempts
  writes : new.countP (·.request.writesPause) ≤ attempts

section Effort

variable {target : Target} {object : Managed} {first second : List Exchange} {n m : Nat}

theorem effort_nil : Effort n target object [] := ⟨by simp, Nat.zero_le n, Nat.zero_le n⟩

theorem Effort.mono (h : Effort n target object first) (hle : n ≤ m) :
    Effort m target object first := ⟨h.about, h.reads.trans hle, h.writes.trans hle⟩

/-- The reads and the writes of two efforts on one object add up. -/
theorem Effort.append (h : Effort n target object first) (h' : Effort m target object second) :
    Effort (n + m) target object (first ++ second) := by
  refine ⟨fun e he => ?_, ?_, ?_⟩
  · rcases List.mem_append.mp he with hmem | hmem
    · exact h.about e hmem
    · exact h'.about e hmem
  · rw [List.countP_append]
    exact Nat.add_le_add h.reads h'.reads
  · rw [List.countP_append]
    exact Nat.add_le_add h.writes h'.writes

theorem effort_read (result : Except Error PauseField) :
    Effort 1 target object [⟨.readPause object, result⟩] :=
  ⟨(touching_read result).about, Nat.le_refl 1, Nat.zero_le 1⟩

theorem effort_write (read : Except Error PauseField) (observed : PauseField)
    (result : Except Error Unit) :
    Effort 1 target object
      [⟨.readPause object, read⟩, ⟨.writePause object observed target.value, result⟩] :=
  ⟨(touching_write read observed result).about, Nat.le_refl 1, Nat.le_refl 1⟩

theorem Hit.effort (h : Hit target object first) : Effort 1 target object first := by
  cases h with
  | held _ => exact effort_read (.ok _)
  | written _ => exact effort_write (.ok _) _ (.ok ())

theorem Miss.effort (h : Miss target object first) : Effort 1 target object first := by
  cases h with
  | unread e => exact effort_read (.error e)
  | unwritten _ e => exact effort_write (.ok _) _ (.error e)

/-- What is about a pause field is no look at a control plane. -/
theorem not_looksAtPlane_of_about {e : Exchange} (h : About target object e) :
    e.request.looksAtPlane = false := by
  rcases h with hread | ⟨_, hwrite⟩
  · rw [hread]
    rfl
  · rw [hwrite]
    rfl

end Effort

/-- Updates of some objects in turn, up to the last or to a failure. -/
inductive Updates (attempts : Nat) (target : Target) : List Managed → List Exchange → Prop
  | stopped (objects : List Managed) : Updates attempts target objects []
  | next {object : Managed} {rest : List Managed} {first second : List Exchange}
      (effort : Effort attempts target object first)
      (others : Updates attempts target rest second) :
      Updates attempts target (object :: rest) (first ++ second)

structure Awaits (looks : Nat) (new : List Exchange) : Prop where
  only : ∀ e ∈ new, e.request.looksAtPlane = true
  length : new.length ≤ looks

/-- What follows upon the pools of a hosted cluster being asked for, if that comes to pass. -/
inductive Pools (attempts : Nat) (target : Target) (cluster : Managed) : List Exchange → Prop
  | unasked : Pools attempts target cluster []
  | refused (e : Error) : Pools attempts target cluster [⟨.nodePools cluster, .error e⟩]
  | listed {pools : List Managed} {more : List Exchange}
      (updates : Updates attempts target pools more) :
      Pools attempts target cluster (⟨.nodePools cluster, .ok pools⟩ :: more)

/-- All exchanges of driving a workload to a target, up to the end or to a failure. -/
structure Drive (looks attempts : Nat) (target : Target) (cluster : Managed)
    (new : List Exchange) : Prop where
  course : ∃ first awaited rest, new = first ++ awaited ++ rest ∧
    Effort attempts target cluster first ∧ Awaits looks awaited ∧
    Pools attempts target cluster rest

section Drive

variable {looks attempts : Nat} {target : Target} {cluster : Managed} {new : List Exchange}

theorem awaits_nil : Awaits looks [] := ⟨by simp, Nat.zero_le looks⟩

theorem Awaits.mono {n m : Nat} (h : Awaits n new) (hle : n ≤ m) :
    Awaits m new := ⟨h.only, h.length.trans hle⟩

/-- The looks of two waits add up. -/
theorem Awaits.append {n m : Nat} {first second : List Exchange} (h : Awaits n first)
    (h' : Awaits m second) : Awaits (n + m) (first ++ second) := by
  refine ⟨fun e he => ?_, ?_⟩
  · rcases List.mem_append.mp he with hmem | hmem
    · exact h.only e hmem
    · exact h'.only e hmem
  · rw [List.length_append]
    exact Nat.add_le_add h.length h'.length

theorem countP_eq_zero_of_about {object : Managed} (h : ∀ e ∈ new, About target object e) :
    new.countP (·.request.looksAtPlane) = 0 := by
  refine List.countP_eq_zero.mpr fun e he => ?_
  simp [not_looksAtPlane_of_about (h e he)]

theorem Updates.countP_eq_zero {objects : List Managed} (h : Updates attempts target objects new) :
    new.countP (·.request.looksAtPlane) = 0 := by
  induction h with
  | stopped => rfl
  | next heffort _ ih => rw [List.countP_append, countP_eq_zero_of_about heffort.about, ih]

theorem Pools.countP_eq_zero (h : Pools attempts target cluster new) :
    new.countP (·.request.looksAtPlane) = 0 := by
  cases h with
  | unasked => rfl
  | refused e => rfl
  | listed hupdates =>
    rw [List.countP_cons_of_neg (by simp [Request.looksAtPlane]), hupdates.countP_eq_zero]

theorem Drive.looks_le (h : Drive looks attempts target cluster new) :
    new.countP (·.request.looksAtPlane) ≤ looks := by
  obtain ⟨first, awaited, rest, rfl, hfirst, hawaited, hrest⟩ := h.course
  rw [List.countP_append, List.countP_append, countP_eq_zero_of_about hfirst.about,
    hrest.countP_eq_zero, Nat.zero_add, Nat.add_zero]
  exact List.countP_le_length.trans hawaited.length

end Drive

namespace Orchestrator

section Bring

variable {polls : Poll.Settings} {policy : Retry.Policy}

/-- An orchestrator has these settings, which it never changes, and its dice are in range. -/
structure SetTo (policy : Retry.Policy) (polls : Poll.Settings) (s : Session κ Orchestrator) :
    Prop where
  dice : s.DiceInRange
  retry : s.own.retry = policy
  propagation : s.own.propagation = polls

theorem SetTo.rolled {s : Session κ Orchestrator} (h : SetTo policy polls s) :
    SetTo policy polls s.rolled := ⟨h.dice.rolled, h.retry, h.propagation⟩

theorem SetTo.after {s : Session κ Orchestrator} (h : SetTo policy polls s) (client : Client κ)
    (request : Request) : SetTo policy polls (client.after request s) :=
  ⟨h.dice, h.retry, h.propagation⟩

theorem permits_setTo (client : Client κ) (asked : Request → Prop) :
    client.Permits asked (Session.Keeping (SetTo policy polls)) where
  pass _ _ h := ⟨h.dice, h.retry, h.propagation⟩
  roll _ h := h.rolled
  after request _ _ h := h.after client request

variable {why : Failure → Session (Chronicle κ) Orchestrator → Prop}
variable (herror : ∀ f s, f.IsError → why f s) (client : Client κ)

omit herror in
theorem addsWhile_recordState (object : Managed) (state : State) {part : List Exchange → Prop} :
    AddsWhile (SetTo policy polls) why (recordState (κ := Chronicle κ) object state)
      (fun _ new => new = []) part :=
  (adds_bind_quiet (adds_own fun _ => rfl) fun _ => adds_setOwn _ rfl).addsWhile
    fun _ hs => ⟨hs.dice, hs.retry, hs.propagation⟩

omit herror in
/-- Another attempt is one more read and one more write at most. -/
theorem ends_attempt_effort (base : List Exchange) (target : Target) (object : Managed) (n : Nat) :
    Ends (fun s => Session.Since base (Effort n target object) s ∧ SetTo policy polls s)
      (attempt client.recorded object target.value)
      (fun _ s => Session.Since base (Effort (n + 1) target object) s ∧ SetTo policy polls s)
      fun f s => (Session.Since base (Effort (n + 1) target object) s ∧ SetTo policy polls s) ∧
        f.IsError := by
  rintro s ⟨hs, hset⟩
  have hkeep := (moves_attempt (permits_setTo client.recorded fun _ => True)
    (fun _ _ => trivial : ∀ request, target.asksOf object request → True) s trivial).1 hset
  have hend := (adds_attempt client target object).after base (Effort n target object) s hs
  generalize attempt client.recorded object target.value s = result at hend hkeep
  cases hend with
  | ok hlater =>
    obtain ⟨_, hnew, first, second, hfirst, hsecond, rfl⟩ := hlater
    exact .ok ⟨⟨_, hnew, hfirst.append hsecond.effort⟩, hkeep⟩
  | error hlater =>
    obtain ⟨_, hnew, first, second, hfirst, ⟨hsecond, herror⟩, rfl⟩ := hlater
    exact .error ⟨⟨⟨_, hnew, hfirst.append hsecond.effort⟩, hkeep⟩, herror⟩

include herror

theorem addsWhile_ask (request : Request) {post : request.Answer → List Exchange → Prop}
    {part : List Exchange → Prop} (hok : ∀ a, post a [⟨request, .ok a⟩])
    (hfail : ∀ e, part [⟨request, .error e⟩]) :
    AddsWhile (SetTo policy polls) why (client.recorded.ask request) post part := by
  refine (adds_ask client request hok fun e => ⟨hfail e, fun s => herror _ s ⟨e, rfl⟩⟩).addsWhile ?_
  intro s hs
  rw [Client.run_ask]
  exact hs.after client.recorded request

/-- Setting a pause field takes no more reads and writes than there are attempts. -/
theorem addsWhile_apply (hpolicy : policy.Steady) (target : Target) (object : Managed) :
    AddsWhile (SetTo policy polls) why (apply client.recorded policy object target.value)
      (fun _ => Effort policy.attempts target object) (Effort policy.attempts target object) := by
  intro base
  have hmore : ∀ {n m} (s : Session (Chronicle κ) Orchestrator), n ≤ m →
      Session.Since base (Effort n target object) s ∧ SetTo policy polls s →
        Session.Since base (Effort m target object) s ∧ SetTo policy polls s :=
    fun _ hle hs => ⟨hs.1.imp fun _ hnew => ⟨hnew.1, hnew.2.mono hle⟩, hs.2⟩
  refine (Retry.ends_run_within hpolicy hmore
    (fun _ _ _ hs => ⟨hs.1, hs.2.dice, hs.2.retry, hs.2.propagation⟩) (fun _ _ hs => hs.2.dice)
    (fun _ _ hs => ⟨hs.1, hs.2.rolled⟩) (ends_attempt_effort client base target object)).imp ?_
    (fun _ _ hs => hs) fun f s hs => ⟨hs.1.1, herror f s hs.2⟩
  rintro s ⟨hs, hset⟩
  exact ⟨⟨[], by rw [hs, List.append_nil], effort_nil⟩, hset⟩

/-- Bringing one object to a target takes no more reads, and no more writes, than the policy has
attempts. -/
theorem addsWhile_bring (hpolicy : policy.Steady) (target : Target) (object : Managed) :
    AddsWhile (SetTo policy polls) why (bring client.recorded target object)
      (fun _ => Effort policy.attempts target object) (Effort policy.attempts target object) := by
  have hreach : AddsWhile (SetTo policy polls) why (do
      let _ ← apply client.recorded (← Act.own).retry object target.value
      recordState object target.reached)
      (fun _ => Effort policy.attempts target object) (Effort policy.attempts target object) := by
    refine addsWhile_own_bind fun s hs => ?_
    rw [hs.retry]
    refine addsWhile_bind _ (addsWhile_apply herror client hpolicy target object) fun _ =>
      (addsWhile_recordState object _).imp ?_ fun _ h => h
    rintro ⟨⟩ second rfl first hfirst
    rwa [List.append_nil]
  unfold bring
  split
  · refine addsWhile_bind _ (addsWhile_recordState object _) fun _ => hreach.imp ?_ ?_
    · rintro _ second h first rfl
      exact h
    · rintro second h first rfl
      exact h
  · exact hreach

/-- Every object of a list has the attempts of the policy for itself. -/
theorem addsWhile_bringAll (hpolicy : policy.Steady) (target : Target) (objects : List Managed) :
    AddsWhile (SetTo policy polls) why (bringAll client.recorded target objects)
      (fun _ => Updates policy.attempts target objects)
      (Updates policy.attempts target objects) := by
  induction objects with
  | nil => exact addsWhile_pure () (.stopped [])
  | cons object rest ih =>
    refine addsWhile_bind _ ((addsWhile_bring herror client hpolicy target object).imp
      (fun _ _ h => h) fun new h => ?_) fun _ => ih.imp ?_ ?_
    · rw [← List.append_nil new]
      exact .next h (.stopped rest)
    · exact fun _ second hrest first hfirst => .next hfirst hrest
    · exact fun second hrest first hfirst => .next hfirst hrest

/-- The pools are asked for once, and each is updated in turn. -/
theorem addsWhile_pools (hpolicy : policy.Steady) (target : Target) (cluster : Managed) :
    AddsWhile (SetTo policy polls) why (do
      let pools : List Managed ← client.recorded.ask (.nodePools cluster)
      bringAll client.recorded target pools)
      (fun _ => Pools policy.attempts target cluster) (Pools policy.attempts target cluster) := by
  refine addsWhile_bind (fun pools new => new = [⟨.nodePools cluster, .ok pools⟩])
    (addsWhile_ask herror client _ (fun _ => rfl) .refused) fun pools =>
      (addsWhile_bringAll herror client hpolicy target pools).imp ?_ ?_
  · rintro _ more hmore _ rfl
    exact .listed hmore
  · rintro more hmore _ rfl
    exact .listed hmore

end Bring

section Await

variable {polls : Poll.Settings} {policy : Retry.Policy} (client : Client κ)

/-- One look at the control plane is one request. -/
theorem adds_propagated_awaits (plane : Watch.Identity) (value : String) :
    Adds (propagated client.recorded plane value) (fun _ => Awaits 1)
      fun f new => Awaits 1 new ∧ f.IsError := by
  have hlook : ∀ result, Awaits 1 [(⟨.controlPlane plane, result⟩ : Exchange)] := by
    intro result
    refine ⟨fun e he => ?_, Nat.le_refl 1⟩
    rw [List.mem_singleton.mp he]
    rfl
  unfold propagated
  refine adds_bind (fun found new => new = [⟨.controlPlane plane, .ok found⟩])
    (adds_ask client _ (fun _ => rfl) fun e => ⟨hlook _, e, rfl⟩) fun found => ?_
  cases found with
  | none =>
    refine adds_pure _ ?_
    rintro first rfl
    exact hlook _
  | some hcp =>
    refine adds_pure _ ?_
    rintro first rfl
    exact hlook _

theorem moves_propagated {client : Client κ} {asked : Request → Prop}
    {R : Session κ Orchestrator → Session κ Orchestrator → Prop}
    [IsPreorder (Session κ Orchestrator) R] (hR : client.Permits asked R)
    (plane : Watch.Identity) (hasked : asked (.controlPlane plane)) (value : String) :
    Moves R (propagated client plane value) := by
  unfold propagated
  refine leads_bind _ (moves_ask hR hasked) fun found => ?_
  cases found with
  | none => exact leads_pure _ fun _ _ => trivial
  | some _ => exact leads_pure _ fun _ _ => trivial

/-- A look adds one to the looks, and leaves the settings as they are. -/
theorem ends_propagated (policy : Retry.Policy) (polls : Poll.Settings) (base : List Exchange)
    (plane : Watch.Identity) (value : String) (n : Nat) :
    Ends (fun s => Session.Since base (Awaits n) s ∧ SetTo policy polls s)
      (propagated client.recorded plane value)
      (fun _ s => Session.Since base (Awaits (n + 1)) s ∧ SetTo policy polls s)
      fun f s => (Session.Since base (Awaits (n + 1)) s ∧ SetTo policy polls s) ∧ f.IsError := by
  rintro s ⟨hs, hset⟩
  have hkeep := (moves_propagated (permits_setTo client.recorded fun _ => True) plane trivial value
    s trivial).1 hset
  have hend := (adds_propagated_awaits client plane value).after base (Awaits n) s hs
  generalize propagated client.recorded plane value s = result at hend hkeep
  cases hend with
  | ok hlater =>
    obtain ⟨_, hnew, first, second, hfirst, hsecond, rfl⟩ := hlater
    exact .ok ⟨⟨_, hnew, hfirst.append hsecond⟩, hkeep⟩
  | error hlater =>
    obtain ⟨_, hnew, first, second, hfirst, ⟨hsecond, herror⟩, rfl⟩ := hlater
    exact .error ⟨⟨⟨_, hnew, hfirst.append hsecond⟩, hkeep⟩, herror⟩

/-- Waiting for the control plane takes no more looks than the poll has. -/
theorem addsWhile_awaitPropagation (hpolls : polls.Bounded)
    (plane : Option Watch.Identity) :
    AddsWhile (SetTo policy polls) (Poll.Stops polls) (awaitPropagation client.recorded plane)
      (fun _ => Awaits (Poll.mostLooks polls)) (Awaits (Poll.mostLooks polls)) := by
  cases plane with
  | none => exact addsWhile_pure () awaits_nil
  | some plane =>
    unfold awaitPropagation
    refine addsWhile_own_bind fun s hs => ?_
    rw [hs.propagation]
    have hmore : ∀ {base} {n m} (s : Session (Chronicle κ) Orchestrator), n ≤ m →
        Session.Since base (Awaits n) s ∧ SetTo policy polls s →
          Session.Since base (Awaits m) s ∧ SetTo policy polls s :=
      fun _ hle hs => ⟨hs.1.imp fun _ hnew => ⟨hnew.1, hnew.2.mono hle⟩, hs.2⟩
    have hpoll : AddsWhile (SetTo policy polls) (Poll.Stops polls)
        (Poll.run polls (awaited plane Target.pause.value)
          (propagated client.recorded plane Target.pause.value))
        (fun _ => Awaits (Poll.mostLooks polls)) (Awaits (Poll.mostLooks polls)) := by
      rintro base s ⟨hs, hset⟩
      have hforward := moves_propagated
        (Session.permits_notBefore client.recorded fun _ => True) plane trivial Target.pause.value
      have hlook := fun n => (ends_propagated client policy polls base plane Target.pause.value
        n).notBefore hforward
      have hpass : ∀ n (t : Session (Chronicle κ) Orchestrator) millis,
          Session.Since base (Awaits n) t ∧ SetTo policy polls t →
            Session.Since base (Awaits n) (t.pass millis) ∧ SetTo policy polls (t.pass millis) :=
        fun _ _ _ ht => ⟨ht.1, ht.2.dice, ht.2.retry, ht.2.propagation⟩
      refine (Poll.ends_run_within hpolls hmore (fun n t millis ht _ => hpass n t millis ht)
        hlook).imp (fun _ h => h)
        (fun _ _ hs => hs) ?_ s ⟨⟨⟨[], by rw [hs, List.append_nil], awaits_nil⟩, hset⟩, rfl⟩
      exact fun f later hlater => ⟨hlater.1.1, hlater.2⟩
    refine addsWhile_bind _ hpoll fun _ => addsWhile_pure _ fun first hfirst => ?_
    rwa [List.append_nil]

/-- A pause makes one drive, and looks at the control plane no more often than the poll may. -/
theorem addsWhile_pause (hpolicy : policy.Steady) (hpolls : polls.Bounded) (cluster : Managed)
    (plane : Option Watch.Identity) :
    AddsWhile (SetTo policy polls) (Poll.Stops polls) (pause client.recorded cluster plane)
      (fun _ => Drive (Poll.mostLooks polls) policy.attempts .pause cluster)
      (Drive (Poll.mostLooks polls) policy.attempts .pause cluster) := by
  have hstops : ∀ f (s : Session (Chronicle κ) Orchestrator), f.IsError → Poll.Stops polls f s :=
    fun _ _ h => Or.inl h
  refine addsWhile_bind _ ((addsWhile_bring hstops client hpolicy .pause cluster).imp
    (fun _ _ h => h) fun first h => ⟨first, [], [], by simp, h, awaits_nil, .unasked⟩) fun _ => ?_
  refine addsWhile_bind _ ((addsWhile_awaitPropagation client hpolls plane).imp
    (fun _ _ h => h) fun awaited h first hfirst => ⟨first, awaited, [], by simp, hfirst, h,
      .unasked⟩) fun _ => (addsWhile_pools hstops client hpolicy .pause cluster).imp ?_ ?_
  · rintro _ rest hrest awaited hawaited first hfirst
    exact ⟨first, awaited, rest, (List.append_assoc ..).symm, hfirst, hawaited, hrest⟩
  · rintro rest hrest awaited hawaited first hfirst
    exact ⟨first, awaited, rest, (List.append_assoc ..).symm, hfirst, hawaited, hrest⟩

/-- A resume makes one drive, and waits for nothing. -/
theorem addsWhile_resume (hpolicy : policy.Steady) (cluster : Managed) :
    AddsWhile (SetTo policy polls) (fun f _ => f.IsError) (resume client.recorded cluster)
      (fun _ => Drive 0 policy.attempts .resume cluster)
      (Drive 0 policy.attempts .resume cluster) := by
  have herror : ∀ (f : Failure) (_ : Session (Chronicle κ) Orchestrator),
      f.IsError → f.IsError := fun _ _ h => h
  refine addsWhile_bind _ ((addsWhile_bring herror client hpolicy .resume cluster).imp
    (fun _ _ h => h) fun first h => ⟨first, [], [], by simp, h, awaits_nil, .unasked⟩) fun _ =>
      (addsWhile_pools herror client hpolicy .resume cluster).imp ?_ ?_
  · rintro _ rest hrest first hfirst
    exact ⟨first, [], rest, by simp, hfirst, awaits_nil, hrest⟩
  · rintro rest hrest first hfirst
    exact ⟨first, [], rest, by simp, hfirst, awaits_nil, hrest⟩

end Await
end Orchestrator
end Pause
end BackupWatch
