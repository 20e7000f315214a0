import BackupWatch.Job.Progress
import BackupWatch.Pause.Orchestrator
import BackupWatch.Proofs.Chronicle

/-!
Clients that grant every request. With such a client recording leftovers and writing pause fields
cannot fail, and neither can a resume, which waits for nothing.
-/

namespace BackupWatch

open Act Cluster Job Watch

variable {κ σ α : Type}

structure Cluster.Client.Grants (client : Client κ) : Prop where
  accepts : ∀ request, client.accepts request = true
  result : ∀ request clock cluster, ∃ a, (client.reply request clock cluster).result = .ok a

theorem Cluster.Client.Grants.recorded {client : Client κ} (h : client.Grants) :
    client.recorded.Grants :=
  ⟨h.accepts, fun request clock chronicle => h.result request clock chronicle.cluster⟩

theorem Retry.succeeds_run (policy : Policy) (operation : String) {act : Act κ σ α}
    (h : Succeeds act) : Succeeds (run policy operation act) := by
  intro s
  obtain ⟨a, ha⟩ := h s
  have hrun : act s = (.ok a, (act s).2) := Prod.ext ha rfl
  exact ⟨a, by rw [run_of_ok hrun]⟩

variable {client : Client κ} (hclient : client.Grants)

include hclient

theorem succeeds_ask (request : Request) :
    Succeeds (client.ask request : Act κ σ request.Answer) := by
  intro s
  obtain ⟨a, ha⟩ := hclient.result request s.clock s.cluster
  exact ⟨a, by rw [Client.run_ask_of_ok ha]⟩

namespace Job

/-- Without refusals a kind can be listed wherever the backup looks for it. -/
theorem succeeds_listInScope (ctx : Context) (kind : Kind) :
    Succeeds (listInScope client ctx kind : Act κ σ (List Object)) := by
  have hask : ∀ ns, Succeeds (client.ask (.list kind ns) : Act κ σ (List Object)) :=
    fun ns => succeeds_ask hclient (.list kind ns)
  unfold listInScope
  cases kind.scope with
  | cluster => exact hask none
  | backupNamespace => exact hask _
  | includedNamespaces =>
    have haccepts : (ctx.included.names.all fun ns =>
        client.accepts (.list kind (some ns))) = true := by
      simp [hclient.accepts]
    unfold listEach
    simp only [haccepts, Bool.not_true, Bool.and_false, Bool.false_eq_true, if_false]
    exact succeeds_bind (succeeds_mapM _ fun ns => hask (some ns)) fun _ _ => ⟨_, rfl⟩

/-- Without refusals the leftovers of all stages can be recorded. -/
theorem Progress.succeeds_seedAll (ctx : Context) : Succeeds (seedAll client ctx) := by
  refine succeeds_bind (fun _ => ⟨_, rfl⟩) fun p => succeeds_forM _ fun kind s => ?_
  have hseed : Succeeds (Job.seed client ctx kind) := by
    unfold Job.seed
    refine succeeds_bind (fun _ => ⟨_, rfl⟩) fun job => ?_
    split
    · exact fun _ => ⟨(), rfl⟩
    · exact succeeds_bind (succeeds_listInScope hclient ctx kind) fun _ _ => ⟨(), rfl⟩
  exact hseed (s.focus Progress.job)

end Job

namespace Pause

theorem succeeds_attempt (object : Managed) (value : String) :
    Succeeds (attempt client object value : Act κ σ Bool) := by
  refine succeeds_bind (succeeds_ask hclient _) fun observed => ?_
  split
  · exact fun _ => ⟨false, rfl⟩
  · exact succeeds_bind (succeeds_ask hclient _) fun _ _ => ⟨true, rfl⟩

namespace Orchestrator

/-- Without refusals an object is brought to a target at the first attempt. -/
theorem succeeds_bring (target : Target) (object : Managed) :
    Succeeds (bring client target object) := by
  have hrecord : ∀ state, Succeeds (recordState (κ := κ) object state) := fun _ _ => ⟨(), rfl⟩
  have hreach : Succeeds (do
      let _ ← apply client (← Act.own).retry object target.value
      recordState object target.reached) :=
    succeeds_bind (fun _ => ⟨_, rfl⟩) fun o => succeeds_bind
      (Retry.succeeds_run o.retry _ (succeeds_attempt hclient object target.value)) fun _ =>
        hrecord _
  unfold bring
  split
  · exact succeeds_bind (hrecord _) fun _ => hreach
  · exact hreach

/-- Without refusals a resume waits for nothing and cannot fail. -/
theorem succeeds_resume (cluster : Managed) : Succeeds (resume client cluster) := by
  have hall : ∀ pools, Succeeds (bringAll client .resume pools) := by
    intro pools
    induction pools with
    | nil => exact fun _ => ⟨(), rfl⟩
    | cons pool rest ih => exact succeeds_bind (succeeds_bring hclient .resume pool) fun _ => ih
  exact succeeds_bind (succeeds_bring hclient .resume cluster) fun _ =>
    succeeds_bind (succeeds_ask hclient _) fun pools => hall pools

end Orchestrator
end Pause
end BackupWatch
