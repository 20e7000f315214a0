import BackupWatch.Job.Progress
import BackupWatch.Proofs.Job.Check
import Mathlib.Logic.Relation

/-!
Passes and waits as paths of small steps: time passes, the leftovers of a stage are recorded, a
stage is checked once those before it have finished, and the chain is marked as finished. What
a step keeps is kept by every pass and every wait, wherever it ends.
-/

namespace BackupWatch.Job

open Act Cluster Watch

variable {κ α : Type} {client : Client κ} {ctx : Context}

namespace Progress

def isDone (p : Progress) (kind : Kind) : Bool := (p.job.completion.get kind).finished

def Seeded (p : Progress) : Prop := ∀ kind ∈ p.chain.stages, p.job.leftovers.isBuilt kind = true

/-- A place in the chain that a pass or a wait has come to. -/
structure AtStage (p : Progress) (before after : List Kind) : Prop where
  stages : p.chain.stages = before ++ after
  done : ∀ kind ∈ before, p.isDone kind = true
  seeded : p.Seeded

def checkerAt (p : Progress) (before : List Kind) (kind : Kind) : Checker :=
  stageChecker p.job before.getLast? kind

inductive Step (client : Client κ) (ctx : Context) : Session κ Progress → Session κ Progress → Prop
  | pass (s : Session κ Progress) (millis : Nat) : Step client ctx s (s.pass millis)
  | seed (s : Session κ Progress) {kind : Kind} (h : kind ∈ s.own.chain.stages) :
      Step client ctx s (onJob (Job.seed client ctx kind) s).2
  | check (s : Session κ Progress) {before after : List Kind} {kind : Kind}
      (h : s.own.AtStage before (kind :: after)) :
      Step client ctx s (onJob (Job.check client ctx (s.own.checkerAt before kind)) s).2
  | finish (s : Session κ Progress) (h : ∀ kind ∈ s.own.chain.stages, s.own.isDone kind = true) :
      Step client ctx s (markFinished s).2

abbrev Path (client : Client κ) (ctx : Context) :
    Session κ Progress → Session κ Progress → Prop :=
  Relation.ReflTransGen (Step client ctx)

instance : IsPreorder (Session κ Progress) (Path client ctx) where

structure Advances (p later : Progress) : Prop where
  chain : later.chain = p.chain
  finished : p.finished = true → later.finished = true
  job : p.job.Advances later.job

instance : IsPreorder Progress Advances where
  refl p := ⟨rfl, fun h => h, refl_of JobState.Advances p.job⟩
  trans _ _ _ hab hbc :=
    ⟨hbc.chain.trans hab.chain, fun h => hbc.finished (hab.finished h),
      trans_of JobState.Advances hab.job hbc.job⟩

theorem Advances.isDone {p later : Progress} (h : p.Advances later) {kind : Kind}
    (hdone : p.isDone kind = true) : later.isDone kind = true := by
  rw [Progress.isDone, h.job.done kind hdone]
  exact hdone

theorem Advances.seeded {p later : Progress} (h : p.Advances later) (hseeded : p.Seeded) :
    later.Seeded := by
  intro kind hkind
  rw [h.chain] at hkind
  exact h.job.isBuilt (hseeded kind hkind)

theorem Advances.atStage {p later : Progress} (h : p.Advances later) {before after : List Kind}
    (hat : p.AtStage before after) : later.AtStage before after :=
  ⟨h.chain ▸ hat.stages, fun kind hkind => h.isDone (hat.done kind hkind),
    h.seeded hat.seeded⟩

abbrev withJob (s : Session κ Progress) (inner : Session κ JobState) : Session κ Progress :=
  s.unfocus (fun job p => { p with job }) inner

theorem run_onJob (act : Act κ JobState α) (s : Session κ Progress) :
    onJob act s = ((act (s.focus Progress.job)).1, withJob s (act (s.focus Progress.job)).2) := rfl

theorem advances_onJob {act : Act κ JobState α} {s : Session κ Progress}
    (h : s.own.job.Advances (act (s.focus Progress.job)).2.own) :
    s.own.Advances (onJob act s).2.own := ⟨rfl, fun h => h, h⟩

theorem Step.advances {s later : Session κ Progress} (h : Step client ctx s later) :
    s.own.Advances later.own := by
  cases h with
  | pass millis => exact refl_of Advances s.own
  | seed hkind => exact advances_onJob (seeding client ctx _ (s.focus Progress.job)).advances
  | check hat => exact advances_onJob (checking client ctx _ (s.focus Progress.job)).advances
  | finish hdone => exact ⟨rfl, fun _ => rfl, refl_of JobState.Advances s.own.job⟩

theorem Path.advances {s later : Session κ Progress} (h : Path client ctx s later) :
    s.own.Advances later.own := by
  induction h with
  | refl => exact refl_of Advances s.own
  | tail _ hstep ih => exact trans_of Advances ih hstep.advances

theorem AtStage.mem_stages {p : Progress} {before after : List Kind} {kind : Kind}
    (hat : p.AtStage before (kind :: after)) : kind ∈ p.chain.stages := by
  rw [hat.stages]
  exact List.mem_append_right before (List.mem_cons_self ..)

/-- Progress asks for nothing but lists of its stages. -/
theorem Step.sends_stages {s later : Session (Chronicle κ) Progress}
    (h : Step client.recorded ctx s later) :
    Session.Sends (fun e => ∃ kind ∈ s.own.chain.stages, ∃ ns, e.request = .list kind ns)
      s later := by
  have hpermits : client.recorded.Permits
      (fun request => ∃ kind ∈ s.own.chain.stages, ∃ ns, request = .list kind ns)
      (Session.Sends fun e => ∃ kind ∈ s.own.chain.stages, ∃ ns, e.request = .list kind ns :
        Session (Chronicle κ) JobState → _ → Prop) := Session.permits_sends client fun _ _ h => h
  cases h with
  | pass millis => exact .of_history_eq rfl
  | seed hmem =>
    exact (moves_seed hpermits (fun _ _ => .of_history_eq rfl) ctx _ (fun ns => ⟨_, hmem, ns, rfl⟩)
      (s.focus Progress.job) trivial).1
  | check hat =>
    exact (moves_check hpermits (fun _ _ => .of_history_eq rfl) ctx _
      (fun ns => ⟨_, hat.mem_stages, ns, rfl⟩) (s.focus Progress.job) trivial).1
  | finish _ => exact .of_history_eq rfl

theorem Step.sends_lists {s later : Session (Chronicle κ) Progress}
    (h : Step client.recorded ctx s later) :
    Session.Sends (fun e => e.request.isList) s later := by
  obtain ⟨new, hnew, hstages⟩ := h.sends_stages
  refine ⟨new, hnew, ?_⟩
  intro e he
  obtain ⟨_, _, _, hrequest⟩ := hstages e he
  exact hrequest ▸ trivial

theorem Path.sends_lists {s later : Session (Chronicle κ) Progress}
    (h : Path client.recorded ctx s later) :
    Session.Sends (fun e => e.request.isList) s later := by
  induction h with
  | refl => exact refl_of (Session.Sends _) s
  | tail _ hstep ih => exact trans_of (Session.Sends _) ih hstep.sends_lists

/-- Passes draw no random numbers. -/
theorem Step.diceInRange {s later : Session κ Progress} (h : Step client ctx s later)
    (hs : s.DiceInRange) : later.DiceInRange := by
  have hpermits : client.Permits (fun _ => True)
      (Session.Keeping Session.DiceInRange : Session κ JobState → _ → Prop) :=
    Session.permits_diceInRange client _
  cases h with
  | pass millis => exact hs
  | seed _ =>
    exact (moves_seed hpermits (fun _ _ h => h) ctx _ (fun _ => trivial)
      (s.focus Progress.job) trivial).1 hs
  | check _ =>
    exact (moves_check hpermits (fun _ _ h => h) ctx _ (fun _ => trivial)
      (s.focus Progress.job) trivial).1 hs
  | finish _ => exact hs

/-- Passes and waits leave the dice in range. -/
theorem Path.diceInRange {s later : Session κ Progress} (h : Path client ctx s later)
    (hs : s.DiceInRange) : later.DiceInRange := by
  induction h with
  | refl => exact hs
  | tail _ hstep ih => exact hstep.diceInRange ih

def Sound (p : Progress) : Prop :=
  p.finished = true → ∀ kind ∈ p.chain.stages, p.isDone kind = true

/-- The chain is marked as finished with all stages finished, and no stage is taken back. -/
theorem Step.sound {s later : Session κ Progress} (h : Step client ctx s later)
    (hs : s.own.Sound) : later.own.Sound := by
  have hkeep : (later.own.finished = true → s.own.finished = true) → later.own.Sound := by
    intro hback hfinished kind hkind
    rw [h.advances.chain] at hkind
    exact h.advances.isDone (hs (hback hfinished) kind hkind)
  cases h with
  | pass millis => exact hkeep id
  | seed hkind => exact hkeep id
  | check hat => exact hkeep id
  | finish hdone => exact fun _ => hdone

/-- The permission of a stage to stay empty hangs on the stage before it alone, which has
finished and so does not change. -/
theorem Advances.checkerAt {p later : Progress} (h : p.Advances later) {before after : List Kind}
    (hat : p.AtStage before after) (kind : Kind) :
    later.checkerAt before kind = p.checkerAt before kind := by
  unfold Progress.checkerAt stageChecker
  cases hlast : before.getLast? with
  | none => rfl
  | some previous =>
    have hdone := hat.done previous (List.mem_of_getLast? hlast)
    simp only [Option.all_some, h.job.done previous hdone]

theorem AtStage.next {p : Progress} {before after : List Kind} {kind : Kind}
    (hat : p.AtStage before (kind :: after)) (hdone : p.isDone kind = true) :
    p.AtStage (before ++ [kind]) after := by
  refine ⟨by rw [hat.stages, List.append_assoc]; rfl, ?_, hat.seeded⟩
  intro other hother
  rcases List.mem_append.mp hother with h | h
  · exact hat.done other h
  · exact List.mem_singleton.mp h ▸ hdone

/-- A check reports as finished just what it leaves finished. -/
theorem isDone_check {checker : Checker} {s : Session κ Progress} {o : Outcome}
    (h : (onJob (Job.check client ctx checker) s).1 = .ok o) :
    (onJob (Job.check client ctx checker) s).2.own.isDone checker.kind = o.finished := by
  have hcheck := checking client ctx checker (s.focus Progress.job)
  generalize hrun : Job.check client ctx checker (s.focus Progress.job) = result at hcheck
  rw [run_onJob, hrun] at h ⊢
  cases hcheck with
  | cached hdone =>
    cases h
    exact hdone
  | refused _ _ _ => cases h
  | failed _ _ _ _ => cases h
  | counted _ _ _ _ hverdict =>
    cases h
    rw [hverdict]
    simp [isDone, Session.unfocus, JobState.settle]

/-- Once recorded, the leftovers of a kind are there. -/
theorem isBuilt_seed {kind : Kind} {s : Session κ Progress}
    (h : (onJob (Job.seed client ctx kind) s).1 = .ok ()) :
    (onJob (Job.seed client ctx kind) s).2.own.job.leftovers.isBuilt kind = true := by
  have hseed := seeding client ctx kind (s.focus Progress.job)
  generalize hrun : Job.seed client ctx kind (s.focus Progress.job) = result at hseed
  rw [run_onJob, hrun] at h ⊢
  cases hseed with
  | built hbuilt => exact hbuilt
  | refused _ _ _ => cases h
  | listed _ _ _ => exact Leftovers.isBuilt_record_self ..

/-- The kinds of the chain up to `kinds` have their leftovers, and `kinds` get theirs. -/
theorem leads_seeds {chain : Chain} {already kinds : List Kind}
    (hstages : chain.stages = already ++ kinds) :
    Leads (Path client ctx)
      (fun s => s.own.chain = chain ∧ ∀ kind ∈ already, s.own.job.leftovers.isBuilt kind = true)
      (kinds.forM fun kind => onJob (Job.seed client ctx kind))
      fun _ s => s.own.chain = chain ∧ s.own.Seeded := by
  induction kinds generalizing already with
  | nil =>
    refine leads_pure () fun s hs => ⟨hs.1, ?_⟩
    intro kind hkind
    rw [hs.1, hstages, List.append_nil] at hkind
    exact hs.2 kind hkind
  | cons kind rest ih =>
    have hstages' : chain.stages = (already ++ [kind]) ++ rest := by
      rw [hstages, List.append_assoc]
      rfl
    refine leads_bind _ ?_ fun _ => ih hstages'
    intro s hs
    have hmem : kind ∈ s.own.chain.stages := by
      rw [hs.1, hstages]
      exact List.mem_append_right already (List.mem_cons_self ..)
    have hstep : Step client ctx s (onJob (Job.seed client ctx kind) s).2 := .seed s hmem
    refine ⟨.single hstep, ?_⟩
    intro () hok
    refine ⟨hstep.advances.chain.trans hs.1, ?_⟩
    intro other hother
    rcases List.mem_append.mp hother with h | h
    · exact hstep.advances.job.isBuilt (hs.2 other h)
    · rw [List.mem_singleton.mp h]
      exact isBuilt_seed hok

theorem leads_seedAll (chain : Chain) :
    Leads (Path client ctx) (fun s => s.own.chain = chain) (seedAll client ctx)
      fun _ s => s.own.chain = chain ∧ s.own.Seeded := by
  intro s hchain
  unfold seedAll
  rw [run_bind, run_own]
  simp only [hchain]
  exact leads_seeds (List.nil_append chain.stages).symm s ⟨hchain, by simp⟩

/-- A check stays at its place in the chain and is made with the right permission. -/
theorem leads_check {before after : List Kind} {kind : Kind} (checker : Checker) :
    Leads (Path client ctx)
      (fun s => s.own.AtStage before (kind :: after) ∧ s.own.checkerAt before kind = checker)
      (onJob (Job.check client ctx checker))
      fun o s => (s.own.AtStage before (kind :: after) ∧ s.own.checkerAt before kind = checker) ∧
        s.own.isDone kind = o.finished := by
  intro s hs
  obtain ⟨hat, hchecker⟩ := hs
  subst hchecker
  have hstep : Step client ctx s (onJob (Job.check client ctx _) s).2 := .check s hat
  refine ⟨.single hstep, ?_⟩
  intro o ho
  exact ⟨⟨hstep.advances.atStage hat, hstep.advances.checkerAt hat kind⟩, isDone_check ho⟩

theorem leads_markFinished {before : List Kind} :
    Leads (Path client ctx) (fun s => s.own.AtStage before []) markFinished
      fun _ s => s.own.finished = true := by
  intro s hat
  have hall : ∀ kind ∈ s.own.chain.stages, s.own.isDone kind = true := by
    rw [hat.stages, List.append_nil]
    exact hat.done
  exact ⟨.single (.finish s hall), fun _ _ => rfl⟩

/-- By induction on the stages: a pass goes on only behind one that has finished. -/
theorem leads_passFrom (before after : List Kind) :
    Leads (Path client ctx) (fun s => s.own.AtStage before after)
      (passFrom client ctx before.getLast? after) fun _ _ => True := by
  induction after generalizing before with
  | nil =>
    exact leads_bind _ leads_markFinished fun _ => leads_pure _ fun _ _ => trivial
  | cons kind after ih =>
    unfold passFrom
    refine leads_bind (fun p s => s.own.AtStage before (kind :: after) ∧
      s.own.checkerAt before kind = p.checkerAt before kind)
      (leads_own fun s hs => ⟨hs, rfl⟩) fun p => ?_
    refine leads_bind _ (leads_check _) fun o => ?_
    refine leads_ite (fun hdone => ?_) fun _ => leads_pure _ fun _ _ => trivial
    have hnext := ih (before ++ [kind])
    rw [List.getLast?_concat] at hnext
    refine leads_bind _ (hnext.imp ?_ fun _ _ h => h) fun _ => leads_pure _ fun _ _ => trivial
    intro s hs
    exact hs.1.1.next (hs.2.trans hdone)

theorem leads_pass : Leads (Path client ctx) (fun _ => True) (pass client ctx) fun _ _ => True := by
  unfold pass
  refine leads_bind (fun p s => s.own.chain = p.chain) (leads_own fun _ _ => rfl) fun p => ?_
  refine leads_ite (fun _ => leads_pure _ fun _ _ => trivial) fun _ => ?_
  refine leads_bind _ (leads_seedAll p.chain) fun _ => (leads_passFrom [] p.chain.stages).imp ?_ ?_
  · exact fun s hs => ⟨by rw [hs.1]; rfl, by simp, hs.2⟩
  · exact fun _ _ h => h

/-- Waiting for a stage looks at it with one checker, which stays the right one. -/
theorem leads_waitFrom (settings : Poll.Settings) (before after : List Kind) :
    Leads (Path client ctx) (fun s => s.own.AtStage before after)
      (waitFrom client ctx settings before.getLast? after) fun _ s => s.own.finished = true := by
  induction after generalizing before with
  | nil => exact leads_markFinished
  | cons kind after ih =>
    unfold waitFrom
    refine leads_bind (fun p s => s.own.AtStage before (kind :: after) ∧
      s.own.checkerAt before kind = p.checkerAt before kind)
      (leads_own fun s hs => ⟨hs, rfl⟩) fun p => ?_
    have hnext := ih (before ++ [kind])
    rw [List.getLast?_concat] at hnext
    refine leads_bind _ (Poll.leads_run settings _ (fun s n => .single (.pass s n))
      (fun s n hs => hs) ?_) fun _ => hnext
    refine leads_bind _ (leads_check _) fun o => leads_pure _ fun s hs => ?_
    split
    · next hdone => exact hs.1.1.next (hs.2.trans hdone)
    · exact hs.1

theorem leads_wait (settings : Poll.Settings) :
    Leads (Path client ctx) (fun _ => True) (wait client ctx settings)
      fun _ s => s.own.finished = true := by
  unfold wait
  refine leads_bind (fun p s => s.own = p) (leads_own fun _ _ => rfl) fun p => ?_
  refine leads_ite (fun hdone => leads_pure _ fun s hs => hs ▸ hdone) fun _ => ?_
  refine leads_bind _ ((leads_seedAll p.chain).imp (fun s hs => hs ▸ rfl) fun _ _ h => h)
    fun _ => (leads_waitFrom settings [] p.chain.stages).imp ?_ fun _ _ h => h
  exact fun s hs => ⟨by rw [hs.1]; rfl, by simp, hs.2⟩

end Progress
end BackupWatch.Job
