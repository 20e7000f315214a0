import BackupWatch.Proofs.Adds
import BackupWatch.Proofs.Pause.Requests
import Mathlib.Data.List.Forall2

/-!
Bringing objects to a target. An attempt reads the pause field of an object, and writes it if it has
another value. An object is touched by one attempt after the other, until an exchange shows it at
the target and not any more; some objects are brought there in turn, up to the first failure.
-/

namespace BackupWatch.Pause

open Act Cluster Orchestrator

variable {κ σ : Type}

/-- The exchanges of an attempt that succeeds. -/
inductive Hit (target : Target) (object : Managed) : List Exchange → Prop
  | held {field : PauseField} (h : field.value = some target.value) :
      Hit target object [⟨.readPause object, .ok field⟩]
  | written {field : PauseField} (h : field.value ≠ some target.value) :
      Hit target object [⟨.readPause object, .ok field⟩,
        ⟨.writePause object field target.value, .ok ()⟩]

/-- The exchanges of an attempt that fails. -/
inductive Miss (target : Target) (object : Managed) : List Exchange → Prop
  | unread (e : Error) : Miss target object [⟨.readPause object, .error e⟩]
  | unwritten {field : PauseField} (h : field.value ≠ some target.value) (e : Error) :
      Miss target object [⟨.readPause object, .ok field⟩,
        ⟨.writePause object field target.value, .error e⟩]

/-- An attempt hits or misses, and what it misses by is an error. -/
theorem adds_attempt (client : Client κ) (target : Target) (object : Managed) :
    Adds (attempt client.recorded object target.value : Act (Chronicle κ) σ Bool)
      (fun _ => Hit target object) fun f new => Miss target object new ∧ f.IsError := by
  unfold attempt
  refine adds_bind (fun field new => new = [⟨.readPause object, .ok field⟩])
    (adds_ask client _ (fun _ => rfl) fun e => ⟨.unread e, e, rfl⟩) fun field => ?_
  refine adds_ite (fun hsame => adds_pure _ ?_) fun hother => ?_
  · rintro first rfl
    exact .held hsame
  · refine adds_bind (fun _ second => second = [⟨.writePause object field target.value, .ok ()⟩])
      (adds_ask client _ (fun _ => rfl) ?_) fun _ => adds_pure _ ?_
    · rintro e first rfl
      exact ⟨.unwritten hother e, e, rfl⟩
    · rintro second rfl first rfl
      exact .written hother

/-- An exchange shows its object at a target: it was read so, or was written so. -/
def Target.shownBy (target : Target) : Exchange → Bool
  | ⟨.readPause _, .ok field⟩ => field.value == some target.value
  | ⟨.writePause _ _ value, .ok _⟩ => value == target.value
  | _ => false

/-- Exchanges about one object, the first of which reads it. -/
structure Touching (target : Target) (object : Managed) (new : List Exchange) : Prop where
  about : ∀ e ∈ new, About target object e
  begun : new.head?.map Exchange.request = some (.readPause object)

/-- Exchanges about one object, none of which shows it at the target. -/
structure Unreached (target : Target) (object : Managed) (new : List Exchange) : Prop
    extends Touching target object new where
  unshown : ∀ e ∈ new, target.shownBy e = false

/-- Exchanges about one object, of which only the last one shows it at the target. -/
structure Reached (target : Target) (object : Managed) (new : List Exchange) : Prop
    extends Touching target object new where
  shown : ∃ first last, new = first ++ [last] ∧ (∀ e ∈ first, target.shownBy e = false) ∧
    target.shownBy last = true

section One

variable {target : Target} {object : Managed} {first second : List Exchange}

theorem Touching.append (h : Touching target object first) (h' : Touching target object second) :
    Touching target object (first ++ second) := by
  refine ⟨fun e he => (List.mem_append.mp he).elim (h.about e) (h'.about e), ?_⟩
  cases first with
  | nil => exact h'.begun
  | cons e rest => exact h.begun

theorem Unreached.append (h : Unreached target object first)
    (h' : Unreached target object second) : Unreached target object (first ++ second) :=
  ⟨h.toTouching.append h'.toTouching,
    fun e he => (List.mem_append.mp he).elim (h.unshown e) (h'.unshown e)⟩

theorem Unreached.reached (h : Unreached target object first)
    (h' : Reached target object second) : Reached target object (first ++ second) := by
  obtain ⟨before, last, rfl, hbefore, hlast⟩ := h'.shown
  refine ⟨h.toTouching.append h'.toTouching, first ++ before, last,
    (List.append_assoc ..).symm, ?_, hlast⟩
  exact fun e he => (List.mem_append.mp he).elim (h.unshown e) (hbefore e)

theorem Unreached.countP (h : Unreached target object first) :
    first.countP target.shownBy = 0 := by
  refine List.countP_eq_zero.mpr fun e he => ?_
  rw [h.unshown e he]
  simp

theorem Reached.countP (h : Reached target object first) : first.countP target.shownBy = 1 := by
  obtain ⟨before, last, rfl, hbefore, hlast⟩ := h.shown
  have hnone : before.countP target.shownBy = 0 :=
    List.countP_eq_zero.mpr fun e he => by simp [hbefore e he]
  rw [List.countP_append, hnone, List.countP_singleton, hlast]
  rfl

/-- A read and then a write. -/
theorem touching_write (result : Except Error PauseField) (observed : PauseField)
    (written : Except Error Unit) :
    Touching target object [⟨.readPause object, result⟩,
      ⟨.writePause object observed target.value, written⟩] := by
  refine ⟨List.forall_mem_cons.mpr ⟨Or.inl rfl, fun e he => ?_⟩, rfl⟩
  rw [List.mem_singleton.mp he]
  exact Or.inr ⟨observed, rfl⟩

theorem touching_read (result : Except Error PauseField) :
    Touching target object [⟨.readPause object, result⟩] := by
  refine ⟨fun e he => ?_, rfl⟩
  rw [List.mem_singleton.mp he]
  exact Or.inl rfl

/-- An attempt that ends well has shown its object at the target once. -/
theorem Hit.reached (h : Hit target object first) : Reached target object first := by
  cases h with
  | held hsame =>
    refine ⟨touching_read (.ok _), [], _, rfl, by simp, ?_⟩
    simp [Target.shownBy, hsame]
  | written hother =>
    refine ⟨touching_write (.ok _) _ (.ok ()), [_], _, rfl, ?_, ?_⟩
    · simpa [Target.shownBy] using hother
    · simp [Target.shownBy]

/-- An attempt that fails has not shown its object at the target. -/
theorem Miss.unreached (h : Miss target object first) : Unreached target object first := by
  cases h with
  | unread e => exact ⟨touching_read (.error e), by simp [Target.shownBy]⟩
  | unwritten hother e =>
    refine ⟨touching_write (.ok _) _ (.error e), ?_⟩
    simpa [Target.shownBy] using hother

end One

/-- A call that ends well shows its object at the target once, at its last attempt. -/
theorem adds_apply (client : Client κ) (policy : Retry.Policy) (target : Target)
    (object : Managed) :
    Adds (apply client.recorded policy object target.value : Act (Chronicle κ) σ Bool)
      (fun _ => Reached target object) fun _ => Unreached target object :=
  Retry.adds_run policy _
    ((adds_attempt client target object).imp (fun _ _ h => h.reached) fun _ _ h => h.1.unreached)
    (fun _ _ _ _ h h' => h.reached h') (fun _ _ _ _ h h' => h.append h') fun _ _ _ h => h

namespace Orchestrator

theorem not_about_nodePools {target : Target} {object cluster : Managed}
    {result : Except Error (List Managed)} :
    ¬ About target object ⟨.nodePools cluster, result⟩ := by
  rintro (hread | ⟨_, hwrite⟩)
  · cases hread
  · cases hwrite

/-- Recording a state sends nothing, so an object is reached as its patch call reaches it. -/
theorem adds_bring (client : Client κ) (target : Target) (object : Managed) :
    Adds (bring client.recorded target object) (fun _ => Reached target object)
      fun _ => Unreached target object := by
  have hrecord : ∀ state, Adds (recordState object state : Act (Chronicle κ) _ _)
      (fun _ new => new = []) fun _ => Unreached target object :=
    fun state => adds_bind_quiet (adds_own fun _ => rfl) fun o => adds_setOwn _ rfl
  have hreach : Adds (do
      let _ ← apply client.recorded (← Act.own).retry object target.value
      recordState object target.reached) (fun _ => Reached target object)
      fun _ => Unreached target object := by
    refine adds_bind_quiet (adds_own fun _ => rfl) fun o => ?_
    refine adds_bind _ (adds_apply client o.retry target object) fun _ =>
      adds_bind_quiet (adds_own fun _ => rfl) fun o => adds_setOwn _ ?_
    intro first hfirst
    rwa [List.append_nil]
  unfold bring
  exact adds_ite (fun _ => adds_bind_quiet (hrecord _) fun _ => hreach) fun _ => hreach

/-- Some objects were brought to a target, one after the other. -/
def AllReached (target : Target) (objects : List Managed) (new : List Exchange) : Prop :=
  ∃ parts, List.Forall₂ (Reached target) objects parts ∧ new = parts.flatten

/-- Some objects were brought to a target, up to one with which that failed. -/
def StoppedShort (target : Target) (objects : List Managed) (new : List Exchange) : Prop :=
  ∃ before object after reached last, objects = before ++ object :: after ∧
    AllReached target before reached ∧ Unreached target object last ∧ new = reached ++ last

section All

variable {target : Target} {objects : List Managed} {new : List Exchange}

theorem AllReached.cons {object : Managed} {first : List Exchange}
    (h : Reached target object first) (h' : AllReached target objects new) :
    AllReached target (object :: objects) (first ++ new) := by
  obtain ⟨parts, hparts, rfl⟩ := h'
  exact ⟨first :: parts, .cons h hparts, rfl⟩

theorem StoppedShort.cons {object : Managed} {first : List Exchange}
    (h : Reached target object first) (h' : StoppedShort target objects new) :
    StoppedShort target (object :: objects) (first ++ new) := by
  obtain ⟨before, other, after, reached, last, rfl, hreached, hlast, rfl⟩ := h'
  exact ⟨object :: before, other, after, first ++ reached, last, rfl, hreached.cons h, hlast,
    (List.append_assoc ..).symm⟩

theorem AllReached.about (h : AllReached target objects new) :
    ∀ e ∈ new, ∃ object ∈ objects, About target object e := by
  obtain ⟨parts, hparts, rfl⟩ := h
  induction hparts with
  | nil => simp
  | @cons object part rest parts hfirst _ ih =>
    intro e he
    rcases List.mem_append.mp (List.flatten_cons ▸ he) with hmem | hmem
    · exact ⟨object, List.mem_cons_self .., hfirst.about e hmem⟩
    · obtain ⟨other, hother, habout⟩ := ih e hmem
      exact ⟨other, List.mem_cons_of_mem object hother, habout⟩

/-- Objects that are all reached have been shown at the target once each. -/
theorem AllReached.countP (h : AllReached target objects new) :
    new.countP target.shownBy = objects.length := by
  obtain ⟨parts, hparts, rfl⟩ := h
  induction hparts with
  | nil => rfl
  | cons hfirst _ ih =>
    rw [List.flatten_cons, List.countP_append, hfirst.countP, ih, List.length_cons, Nat.add_comm]

/-- Where a list was stopped short, not every object has been shown at the target. -/
theorem StoppedShort.countP_lt (h : StoppedShort target objects new) :
    new.countP target.shownBy < objects.length := by
  obtain ⟨before, object, after, reached, last, rfl, hreached, hlast, rfl⟩ := h
  rw [List.countP_append, hreached.countP, hlast.countP, List.length_append, List.length_cons]
  omega

end All

/-- A list of objects is reached one after the other, up to the first that fails. -/
theorem adds_bringAll (client : Client κ) (target : Target) (objects : List Managed) :
    Adds (bringAll client.recorded target objects) (fun _ => AllReached target objects)
      fun _ => StoppedShort target objects := by
  induction objects with
  | nil => exact adds_pure () ⟨[], .nil, rfl⟩
  | cons object rest ih =>
    refine adds_bind _ ((adds_bring client target object).imp (fun _ _ h => h) ?_)
      fun _ => ih.imp ?_ ?_
    · exact fun _ new h => ⟨[], object, rest, [], new, rfl, ⟨[], .nil, rfl⟩, h, rfl⟩
    · exact fun _ second hsecond first hfirst => hsecond.cons hfirst
    · exact fun _ second hsecond first hfirst => hsecond.cons hfirst

end Orchestrator
end BackupWatch.Pause
