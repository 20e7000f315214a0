import BackupWatch.Pause.Orchestrator
import BackupWatch.Proofs.Twins

/-!
Two orchestrators side by side, whose clients give the same answers to everything but lists. Since
neither pausing nor resuming lists watched objects, they do the same.
-/

namespace BackupWatch.Pause

open Act Cluster Watch

variable {κ κ' σ : Type}

namespace Orchestrator

/-- What a look makes of the control plane that it finds. -/
def seenAt (value : String) : Option Resource.ControlPlane → Poll.Status
  | none => ⟨false, "control plane not found yet"⟩
  | some hcp => ⟨hcp.spec.pausedUntil == some value, shownPause hcp.spec.pausedUntil⟩

theorem propagated_eq (client : Client κ) (plane : Identity) (value : String) :
    propagated client plane value = (do
      let found : Option Resource.ControlPlane ← client.ask (.controlPlane plane)
      return seenAt value found) := by
  unfold propagated
  refine congrArg _ (funext fun found => ?_)
  cases found <;> rfl

end Orchestrator

section Grows

variable (client : Client κ)

instance (object : Managed) (value : String) :
    Grows (attempt client.transcribed object value : Act (Transcript κ) σ Bool) := by
  unfold attempt
  infer_instance

instance (policy : Retry.Policy) (object : Managed) (value : String) :
    Grows (apply client.transcribed policy object value : Act (Transcript κ) σ Bool) := by
  unfold apply Retry.run
  infer_instance

namespace Orchestrator

instance (object : Managed) (state : State) :
    Grows (recordState object state : Act (Transcript κ) Orchestrator Unit) := by
  unfold recordState
  infer_instance

instance (target : Target) (object : Managed) :
    Grows (bring client.transcribed target object) := by
  unfold bring
  infer_instance

instance (target : Target) (objects : List Managed) :
    Grows (bringAll client.transcribed target objects) := by
  induction objects with
  | nil =>
    unfold bringAll
    infer_instance
  | cons object rest ih =>
    unfold bringAll
    infer_instance

instance (plane : Identity) (value : String) :
    Grows (propagated client.transcribed plane value) := by
  rw [propagated_eq]
  infer_instance

instance (plane : Option Identity) : Grows (awaitPropagation client.transcribed plane) := by
  unfold awaitPropagation
  cases plane <;> infer_instance

end Orchestrator
end Grows

variable {same : (request : Request) → request.Answer → request.Answer → Prop}
variable (hsame : ∀ request a b, ¬ request.isList → same request a b → a = b)
variable (one : Client κ) (two : Client κ')

include hsame

/-- A request that is no listing gets the same answer in both sessions. -/
theorem paired_ask_same {own : σ → σ → Prop} {request : Request} (hnot : ¬ request.isList) :
    Paired (Replied.Alike same) own
      (one.transcribed.ask request : Act (Transcript κ) σ request.Answer)
      (two.transcribed.ask request) Eq :=
  (paired_ask one two request).imp fun a b h => hsame request a b hnot h

theorem paired_apply (policy : Retry.Policy) (object : Managed) (value : String)
    {own : σ → σ → Prop} :
    Paired (Replied.Alike same) own
      (apply one.transcribed policy object value : Act (Transcript κ) σ Bool)
      (apply two.transcribed policy object value) Eq := by
  refine Retry.paired_run policy _ ?_
  unfold attempt
  refine paired_bind (paired_ask_same hsame one two fun h => h) fun observed _ hobserved => ?_
  subst hobserved
  refine paired_ite (fun _ => paired_pure rfl) fun _ => ?_
  exact paired_bind (paired_ask_same hsame one two fun h => h) fun _ _ _ => paired_pure rfl

namespace Orchestrator

omit hsame in
theorem paired_recordState (object : Managed) (state : State) :
    Paired (Replied.Alike same) Eq
      (recordState object state : Act (Transcript κ) Orchestrator Unit)
      (recordState object state : Act (Transcript κ') Orchestrator Unit) Eq :=
  paired_bind paired_own fun _ _ h => paired_setOwn (h ▸ rfl)

/-- Both sessions bring an object to its target by the same requests. -/
theorem paired_bring (target : Target) (object : Managed) :
    Paired (Replied.Alike same) Eq (bring one.transcribed target object)
      (bring two.transcribed target object) Eq := by
  have hreach : Paired (Replied.Alike same) Eq
      (do
        let _ ← apply one.transcribed (← Act.own).retry object target.value
        recordState object target.reached)
      (do
        let _ ← apply two.transcribed (← Act.own).retry object target.value
        recordState object target.reached) Eq := by
    refine paired_bind paired_own fun o _ ho => ?_
    subst ho
    exact paired_bind (paired_apply hsame one two _ object _) fun _ _ _ =>
      paired_recordState object _
  unfold bring
  refine paired_ite (fun _ => ?_) fun _ => hreach
  exact paired_bind (paired_recordState object .unpausing) fun _ _ _ => hreach

theorem paired_bringAll (target : Target) (objects : List Managed) :
    Paired (Replied.Alike same) Eq (bringAll one.transcribed target objects)
      (bringAll two.transcribed target objects) Eq := by
  induction objects with
  | nil => exact paired_pure rfl
  | cons object rest ih =>
    unfold bringAll
    exact paired_bind (paired_bring hsame one two target object) fun _ _ _ => ih

theorem paired_awaitPropagation (plane : Option Identity) :
    Paired (Replied.Alike same) Eq (awaitPropagation one.transcribed plane)
      (awaitPropagation two.transcribed plane) Eq := by
  cases plane with
  | none => exact paired_pure rfl
  | some id =>
    have hlook : Paired (Replied.Alike same) Eq
        (propagated one.transcribed id Target.pause.value)
        (propagated two.transcribed id Target.pause.value) Eq := by
      rw [propagated_eq, propagated_eq]
      refine paired_bind (paired_ask_same hsame one two fun h => h) fun _ _ hfound => ?_
      exact paired_pure (congrArg _ hfound)
    unfold awaitPropagation
    refine paired_bind paired_own fun o _ ho => ?_
    subst ho
    exact paired_bind (Poll.paired_run _ _ hlook) fun _ _ _ => paired_pure rfl

/-- Both sessions pause a workload alike: a pause lists no backup objects. -/
theorem paired_pause (cluster : Managed) (plane : Option Identity) :
    Paired (Replied.Alike same) Eq (pause one.transcribed cluster plane)
      (pause two.transcribed cluster plane) Eq := by
  unfold pause
  refine paired_bind (paired_bring hsame one two .pause cluster) fun _ _ _ => ?_
  refine paired_bind (paired_awaitPropagation hsame one two plane) fun _ _ _ => ?_
  refine paired_bind (paired_ask_same hsame one two fun h => h) fun pools _ hpools => ?_
  subst hpools
  exact paired_bringAll hsame one two .pause pools

/-- Both sessions resume a workload alike: a resume lists no backup objects. -/
theorem paired_resume (cluster : Managed) :
    Paired (Replied.Alike same) Eq (resume one.transcribed cluster)
      (resume two.transcribed cluster) Eq := by
  unfold resume
  refine paired_bind (paired_bring hsame one two .resume cluster) fun _ _ _ => ?_
  refine paired_bind (paired_ask_same hsame one two fun h => h) fun pools _ hpools => ?_
  subst hpools
  exact paired_bringAll hsame one two .resume pools

end Orchestrator
end BackupWatch.Pause
